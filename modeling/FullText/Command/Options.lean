import FullText.Command.Usage
import FullText.Config

/-!
# The command line

The program has three commands: `index` builds an index from a file of documents, `search` looks up
a query in an index, and `stats` shows the numbers of an index. Switches for the amount of output
and its format may come before or after the command; those after it count.

## Main definitions

* `FieldConfig.parse` : reads a field with a boost.
* `Command` : a command with its arguments.
* `Options` : the whole command line.
* `Options.parse` : reads a command line.
-/

namespace FullText

/-! ### Fields with boosts -/

/-- What is wrong with a field on the command line. -/
inductive FieldSpecFault
  /-- The boost is not a number. -/
  | invalidBoost (spec : String) (fault : Binary64.ParseFault)
  /-- There is no name. -/
  | missingName (spec : String)
  /-- The boost is not finite or not positive. -/
  | boostOutOfRange (spec : String)
  deriving DecidableEq

/-- The wording of a fault. -/
def FieldSpecFault.message : FieldSpecFault → String
  | invalidBoost spec fault =>
    let reason := fault.message
    s!"invalid boost in `{spec}`: {reason}"
  | missingName spec => s!"missing field name in `{spec}`"
  | boostOutOfRange spec => s!"boost must be positive in `{spec}`"

/-- Splits a text at its first caret. -/
def splitCaret : List Char → List Char × Option (List Char)
  | [] => ([], none)
  | c :: rest =>
    if c = '^' then ([], some rest)
    else
      let (name, boost) := splitCaret rest
      (c :: name, boost)

/-- The boost of a field on the command line. -/
def fieldSpecBoost (spec : String) : Option (List Char) → Except FieldSpecFault Binary64
  | none => .ok .one
  | some text =>
    match Binary64.parse (String.ofList text) with
    | .ok boost => .ok boost
    | .error fault => .error (.invalidBoost spec fault)

/-- Reads a field: a name, perhaps with a caret and a boost. -/
def FieldConfig.parse (spec : String) : Except FieldSpecFault FieldConfig :=
  let (name, boost) := splitCaret spec.toList
  match fieldSpecBoost spec boost with
  | .error fault => .error fault
  | .ok boost =>
    if name.isEmpty then .error (.missingName spec)
    else if boost.isPositiveFinite then .ok ⟨String.ofList name, boost, false⟩
    else .error (.boostOutOfRange spec)

/-! ### Commands -/

/-- The arguments of the command that builds an index. -/
structure IndexCommand where
  /-- The file of documents. -/
  file : String
  /-- The file for the index. -/
  output : String
  /-- The key that holds the reference of a document. -/
  referenceField : String
  /-- The fields. -/
  fields : List FieldConfig
  /-- The names of the required fields. -/
  required : List String
  /-- The strength of length normalization. -/
  lengthNormalization : Binary64
  /-- Whether a file that exists is overwritten. -/
  force : Bool
  deriving DecidableEq

/-- The arguments of the command that looks up a query. -/
structure SearchCommand where
  /-- The file of the index. -/
  index : String
  /-- The query. -/
  query : String
  /-- The greatest number of results shown. -/
  limit : Nat
  /-- Whether matches are shown for each field. -/
  explain : Bool
  deriving DecidableEq

/-- A command with its arguments. -/
inductive Command
  /-- Builds an index. -/
  | index (c : IndexCommand)
  /-- Looks up a query. -/
  | search (c : SearchCommand)
  /-- Shows the numbers of the index in a file. -/
  | stats (index : String)
  deriving DecidableEq

/-- The formats of output. -/
inductive OutputFormat
  /-- Text for a reader. -/
  | human
  /-- A JSON text. -/
  | json
  deriving DecidableEq

/-- How results are shown. -/
structure OutputStyle where
  /-- The amount of output: zero is none, and one is the normal amount. -/
  verbosity : Nat
  /-- The format. -/
  format : OutputFormat
  /-- Whether a JSON text is indented. -/
  indented : Bool
  deriving DecidableEq

/-- A command line. -/
structure Options where
  /-- How results are shown. -/
  style : OutputStyle
  /-- The command. -/
  command : Command
  deriving DecidableEq

namespace Options

open Usage

/-! ### Values -/

/-- Reads the name of a format. -/
def format? (value : String) : Option OutputFormat :=
  if value = "human" then some .human else if value = "json" then some .json else none

/-- Reads a limit: digits, perhaps with a plus sign, for a number of 64 bits. -/
def limit? (value : String) : Option Nat :=
  let digits := match value.toList with
    | '+' :: digits => digits
    | digits => digits
  if digits.isEmpty || !digits.all Char.isDigit then none
  else
    let n := Numeral.digitsValue digits
    if n < UInt64.size then some n else none

/-- Reads the strength of length normalization. -/
def strength? (value : String) : Option Binary64 := (Binary64.parse value).toOption

/-- Reads a field. -/
def field? (value : String) : Option FieldConfig := (FieldConfig.parse value).toOption

/-- Refuses the values that cannot be read. -/
def refuseUnless {α : Type} (fault : Fault) (value? : String → Option α) (value : String) :
    Option Fault :=
  if (value? value).isSome then none else some fault

/-- Refuses no value. -/
def anyValue (_ : String) : Option Fault := none

/-- Refuses the empty path. -/
def anyPath (value : String) : Option Fault := if value.isEmpty then some .invalidValue else none

/-! ### Grammars -/

/-- The switches that may come before and after the command. -/
def commonSwitches : List Switch := [
  ⟨"verbose", some 'v', .counter, anyValue⟩,
  ⟨"quiet", some 'q', .flag, anyValue⟩,
  ⟨"format", some 'f', .value, refuseUnless .invalidValue format?⟩,
  ⟨"pretty", none, .flag, anyValue⟩,
  ⟨"help", some 'h', .stop .help, anyValue⟩]

/-- The commands, and the request for help in the form of a command. -/
def commandNames : List String := ["index", "search", "stats", "help"]

/-- What may come before the command. -/
def mainGrammar : Grammar where
  switches := commonSwitches ++ [⟨"version", some 'V', .stop .version, anyValue⟩]
  positionals := []
  commands := commandNames

/-- The words of the command that builds an index. -/
def indexGrammar : Grammar where
  switches := commonSwitches ++ [
    ⟨"output", some 'o', .value, anyPath⟩,
    ⟨"ref", some 'r', .value, anyValue⟩,
    ⟨"field", none, .values, refuseUnless .refusedValue field?⟩,
    ⟨"require", none, .values, anyValue⟩,
    ⟨"length-normalization", none, .value, refuseUnless .refusedValue strength?⟩,
    ⟨"force", none, .flag, anyValue⟩]
  positionals := [⟨"file", anyPath⟩]
  commands := []

/-- The words of the command that looks up a query. -/
def searchGrammar : Grammar where
  switches := commonSwitches ++ [
    ⟨"limit", some 'l', .value, refuseUnless .refusedValue limit?⟩,
    ⟨"explain", none, .flag, anyValue⟩]
  positionals := [⟨"index", anyPath⟩, ⟨"query", anyValue⟩]
  commands := []

/-- The words of the command that shows the numbers of an index. -/
def statsGrammar : Grammar where
  switches := commonSwitches
  positionals := [⟨"index", anyPath⟩]
  commands := []

/-! ### Reading a command line -/

/-- Reads the words of a command, of which some names are required. -/
def readCommand (g : Grammar) (required : List String) (words : List String) :
    Except Fault Given := do
  let (s, _) ← Usage.read g .start words
  let s ← s.settle
  if required.all s.given.has then return s.given else .error .missingArgument

/-- The command that builds an index, as it was given. -/
def indexCommand (given : Given) : Command :=
  .index {
    file := (given.last? "file").getD ""
    output := (given.last? "output").getD ""
    referenceField := (given.last? "ref").getD "id"
    fields := (given.valuesOf "field").filterMap field?
    required := given.valuesOf "require"
    lengthNormalization := ((given.last? "length-normalization").bind strength?).getD .zero
    force := given.has "force" }

/-- The command that looks up a query, as it was given. -/
def searchCommand (given : Given) : Command :=
  .search {
    index := (given.last? "index").getD ""
    query := (given.last? "query").getD ""
    limit := ((given.last? "limit").bind limit?).getD 10
    explain := given.has "explain" }

/-- The command that shows the numbers of an index, as it was given. -/
def statsCommand (given : Given) : Command := .stats ((given.last? "index").getD "")

/-- What a request for help in the form of a command comes to: the words after it must name a
command. -/
def helpFault : List String → Fault
  | [] => .help
  | [name] => if commandNames.contains name then .help else .invalidCommand
  | _ => .invalidCommand

/-- Reads the words after the name of a command. -/
def readNamed (name : String) (words : List String) : Except Fault (Given × Command) :=
  if name = "index" then do
    let given ← readCommand indexGrammar ["file", "output", "field"] words
    return (given, indexCommand given)
  else if name = "search" then do
    let given ← readCommand searchGrammar ["index", "query"] words
    return (given, searchCommand given)
  else if name = "stats" then do
    let given ← readCommand statsGrammar ["index"] words
    return (given, statsCommand given)
  else .error (helpFault words)

/-- What was given of a common switch: after the command if it was given there, and before it
otherwise. -/
def effective (before after : Given) (name : String) : Given :=
  if after.has name then after else before

/-- The greatest number that a counter reaches. -/
def counterLimit : Nat := 255

/-- How results are shown, by what was given before and after the command. -/
def styleOf (before after : Given) : OutputStyle where
  verbosity :=
    if (effective before after "quiet").has "quiet" then 0
    else min ((effective before after "verbose").count "verbose" + 1) counterLimit
  format := (((effective before after "format").last? "format").bind format?).getD .human
  indented := (effective before after "pretty").has "pretty"

/-- Reads a command line. -/
def parse (words : List String) : Except Fault Options := do
  let (s, command) ← Usage.read mainGrammar .start words
  match command with
  | some (name, rest) =>
    let (after, command) ← readNamed name rest
    let s ← s.settle
    return ⟨styleOf s.given after, command⟩
  | none =>
    let s ← s.settle
    .error (if s.given.isEmpty then .nothingGiven else .missingCommand)

end Options

end FullText
