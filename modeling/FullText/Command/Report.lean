import FullText.Command.Options
import FullText.InvertedIndex
import FullText.Search.MatchData

/-!
# Reports

The result of a command is shown as text for a reader or as a JSON text. Text for a reader is left
out when no output is wanted, and has more detail when more is wanted; a JSON text always holds all
of the report. Times are measured outside and given to the report when it is written.

## Main definitions

* `Report` : the result of a command.
* `Report.human` : the text for a reader.
* `Report.toJson` : the JSON form.
* `Report.write` : the output in a given style.
-/

namespace FullText

/-! ### Sizes -/

/-- The units of sizes, each 1024 times as large as the one before. -/
def sizeUnits : List String := ["KB", "MB", "GB", "TB"]

/-- A size that is given in the unit before the first of a list of units, in the largest unit that
is not larger than it. -/
def scaleSize (size : Binary64) (unit : String) : List String → Binary64 × String
  | [] => (size, unit)
  | next :: rest =>
    if (Binary64.ofNat 1024).lessOrSame size then scaleSize (size / Binary64.ofNat 1024) next rest
    else (size, unit)

/-- A number of bytes in a handy unit. -/
def writeSize (bytes : Nat) : String :=
  let (size, unit) := scaleSize (Binary64.ofNat bytes) "B" sizeUnits
  (if unit = "B" then writeNat bytes else size.writeFixed 1) ++ " " ++ unit

/-! ### Reports -/

/-- The result of building an index. -/
structure BuildReport where
  /-- The file that was written. -/
  path : String
  /-- The number of documents. -/
  documents : Nat
  /-- The names of the fields. -/
  fields : List String
  /-- The number of terms in all fields. -/
  terms : Nat
  /-- The size of the file. -/
  snapshotBytes : Nat
  deriving DecidableEq

/-- The result of looking up a query. -/
structure SearchReport where
  /-- The query. -/
  query : String
  /-- The number of documents found. -/
  totalHits : Nat
  /-- The results that are shown. -/
  hits : List SearchResult
  deriving DecidableEq

/-- The result of a command. -/
inductive Report
  /-- An index was built. -/
  | built (r : BuildReport)
  /-- A query was looked up. -/
  | found (r : SearchReport)
  /-- The numbers of an index. -/
  | stats (s : IndexStats)
  deriving DecidableEq

/-! ### For a reader -/

/-- The lines of a report on building an index. -/
def BuildReport.lines (r : BuildReport) (verbosity milliseconds : Nat) : List String :=
  let documents := writeNat r.documents
  let path := r.path
  s!"Indexed {documents} documents into {path}" ::
    if 1 < verbosity then [
      "Fields: " ++ ", ".intercalate r.fields,
      "Terms: " ++ writeNat r.terms,
      "Snapshot size: " ++ writeSize r.snapshotBytes,
      "Build time: " ++ writeNat milliseconds ++ "ms"]
    else []

/-- A text with blanks in front, up to a width. -/
def padLeft (width : Nat) (s : String) : String :=
  String.ofList (List.replicate (width - s.length) ' ') ++ s

/-- A list of positions. -/
def writePositions (ps : List UInt32) : String :=
  "[" ++ ", ".intercalate (ps.map fun p => writeNat p.toNat) ++ "]"

/-- The line of a result with the given number. -/
def SearchResult.line (r : SearchResult) (number : Nat) : String :=
  padLeft 3 (writeNat number) ++ ". " ++ r.reference ++ " (Score: " ++ r.score.writeFixed 3 ++
    ") [" ++ ", ".intercalate (SortedSet.toList r.matchData.terms) ++ "]"

/-- The lines of the matches of a result. -/
def SearchResult.detailLines (r : SearchResult) : List String :=
  r.matchData.fields.entries.flatMap fun (field, terms) =>
    terms.entries.map fun (term, o) =>
      "       " ++ field ++ ":" ++ term ++ " x" ++ writeNat o.frequency.toNat ++ " at " ++
        writePositions o.positions

/-- The lines of results, the first of which has the given number. -/
def hitLines (verbosity : Nat) : Nat → List SearchResult → List String
  | _, [] => []
  | number, r :: rest =>
    r.line number :: (if 1 < verbosity then r.detailLines else []) ++
      hitLines verbosity (number + 1) rest

/-- The lines of a report on looking up a query. -/
def SearchReport.lines (r : SearchReport) (verbosity milliseconds : Nat) : List String :=
  if r.hits.isEmpty then ["No results for `" ++ r.query ++ "`"]
  else
    ["Search Results:", "═══════════════"] ++ hitLines verbosity 1 r.hits ++
      ["", "Total hits: " ++ writeNat r.totalHits] ++
      if 1 < verbosity then ["Search time: " ++ writeNat milliseconds ++ "ms"] else []

/-- The lines of the numbers of a field. -/
def FieldStats.lines (f : FieldStats) : List String := [
  "",
  "Field: " ++ f.name,
  "  Unique terms: " ++ writeNat f.vocabularySize,
  "  Average length: " ++ f.averageLength.writeFixed 1]

/-- The lines of the numbers of an index. -/
def IndexStats.lines (s : IndexStats) : List String :=
  ["Index Statistics:", "════════════════", "Total documents: " ++ writeNat s.documentCount] ++
    s.fields.flatMap FieldStats.lines

/-- Lines as one text. -/
def unlines (ls : List String) : String := String.join (ls.map (· ++ "\n"))

/-! ### As JSON -/

/-- The JSON form of a report on building an index. -/
def BuildReport.toJson (r : BuildReport) (milliseconds : Nat) : Json :=
  .object [
    ("path", .string r.path),
    ("documents", .ofNat r.documents),
    ("fields", .ofStrings r.fields),
    ("terms", .ofNat r.terms),
    ("snapshot_bytes", .ofNat r.snapshotBytes),
    ("duration_ms", .ofNat milliseconds)]

/-- The JSON form of a report on looking up a query. -/
def SearchReport.toJson (r : SearchReport) (milliseconds : Nat) : Json :=
  .object [
    ("query", .string r.query),
    ("total_hits", .ofNat r.totalHits),
    ("duration_ms", .ofNat milliseconds),
    ("hits", .array (r.hits.map SearchResult.toJson))]

/-- The JSON form of the numbers of a field. -/
def FieldStats.toJson (f : FieldStats) : Json :=
  .object [
    ("name", .string f.name),
    ("vocabulary_size", .ofNat f.vocabularySize),
    ("average_length", .number f.averageLength)]

/-- The JSON form of the numbers of an index. -/
def IndexStats.toJson (s : IndexStats) : Json :=
  .object [
    ("document_count", .ofNat s.documentCount),
    ("fields", .array (s.fields.map FieldStats.toJson))]

namespace Report

/-- The text for a reader. -/
def human (r : Report) (verbosity milliseconds : Nat) : String :=
  unlines (match r with
    | built r => r.lines verbosity milliseconds
    | found r => r.lines verbosity milliseconds
    | stats s => s.lines)

/-- The JSON form. -/
def toJson (r : Report) (milliseconds : Nat) : Json :=
  match r with
  | built r => r.toJson milliseconds
  | found r => r.toJson milliseconds
  | stats s => s.toJson

/-- The output in a given style. -/
def write (r : Report) (style : OutputStyle) (milliseconds : Nat) : String :=
  match style.format with
  | .human => if 0 < style.verbosity then r.human style.verbosity milliseconds else ""
  | .json =>
    let v := r.toJson milliseconds
    (if style.indented then v.pretty else v.compact) ++ "\n"

end Report

end FullText
