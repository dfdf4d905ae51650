import FullText.Posting

/-!
# Search results

A result names a document and its score, and tells why the document was found: the terms that
matched, and for each field and term how often and where they occur.

## Main definitions

* `MatchData` : the terms that matched a document.
* `MatchData.add` : records a term.
* `SearchResult` : a document with its score.
-/

namespace FullText

/-- The terms that matched a document. -/
structure MatchData where
  /-- The terms, whatever their field. -/
  terms : SortedSet String
  /-- The occurrences of the terms, by field and term. -/
  fields : SortedMap String (SortedMap String Occurrences)
  deriving DecidableEq

namespace MatchData

/-- No terms at all. -/
def empty : MatchData := ⟨.empty, .empty⟩

/-- Records a term of a field with its occurrences. A term that was recorded before keeps what was
recorded then. -/
def add (m : MatchData) (field term : String) (o : Occurrences) : MatchData where
  terms := SortedSet.add m.terms term
  fields := m.fields.upsert field fun present =>
    (present.getD .empty).upsert term fun known => known.getD o

/-- Whether a term matched in any field. -/
def contains (m : MatchData) (term : String) : Bool := m.terms.contains term

/-- The JSON form. -/
def toJson (m : MatchData) : Json :=
  .object [
    ("terms", .ofStrings (SortedSet.toList m.terms)),
    ("fields", .ofMap (.ofMap Occurrences.toJson) m.fields)]

open Json.Raw (required? record? string? list? map?)

/-- Reads the JSON form. -/
def ofJson? (r : Json.Raw) : Option MatchData := do
  match ← record? ["terms", "fields"] r with
  | [terms, fields] =>
    return ⟨SortedSet.ofElements (← required? (list? string?) terms),
      ← required? (map? (map? Occurrences.ofJson?)) fields⟩
  | _ => none

end MatchData

/-- A document that was found. -/
structure SearchResult where
  /-- The reference of the document. -/
  reference : String
  /-- The score. Greater scores come first. -/
  score : Binary64
  /-- The terms that matched. -/
  matchData : MatchData
  deriving DecidableEq

namespace SearchResult

/-- The JSON form. -/
def toJson (r : SearchResult) : Json :=
  .object [
    ("reference", .string r.reference),
    ("score", .number r.score),
    ("match_data", r.matchData.toJson)]

open Json.Raw (required? record? string? binary64?)

/-- Reads the JSON form. -/
def ofJson? (r : Json.Raw) : Option SearchResult := do
  match ← record? ["reference", "score", "match_data"] r with
  | [reference, score, matchData] =>
    return ⟨← required? string? reference, ← required? binary64? score,
      ← required? MatchData.ofJson? matchData⟩
  | _ => none

end SearchResult

end FullText
