import FullText.Error
import FullText.Text.Blank
import FullText.Json.Interpretation

/-!
# Documents

A document is a reference together with the text of each of its fields. Documents are read from
JSON objects. The reference is the text or number under a given key. Every other member becomes a
field if it has text: numbers and truth values are written out, an array contributes its texts,
numbers and truth values with spaces between them, and nulls and objects contribute nothing.

Several documents are given as one array of objects, or as one object per line; blank lines do not
count.

## Main definitions

* `Document` : a reference with field texts.
* `Document.ofJson` : the document of a JSON value.
* `Document.parseMany` : the documents of a text in either format.
-/

namespace FullText

/-- A document: its reference and the text of each field. -/
structure Document where
  /-- The name of the document. -/
  reference : String
  /-- The texts, by field. -/
  fields : SortedMap String String
  deriving DecidableEq

namespace Document

/-- The text of a field. -/
def field? (d : Document) (name : String) : Option String := d.fields.get? name

/-! ### From JSON values -/

/-- The text of a number, a truth value or a string. -/
def scalarText? : Json → Option String
  | .string s => some s
  | .integer n => some (String.ofList (Json.writeInteger n))
  | .number x => some (String.ofList (Json.writeNumber x))
  | .bool true => some "true"
  | .bool false => some "false"
  | _ => none

/-- The text that a member of a JSON object gives to a field, if any. -/
def fieldText? : Json → Option String
  | .array items => some (" ".intercalate (items.filterMap scalarText?))
  | value => scalarText? value

/-- The reference in the members of an object. -/
def referenceOf (members : List (String × Json)) (referenceField : String) :
    Except DocumentFault String :=
  match members.find? fun m => m.1 = referenceField with
  | none => .error (.missingReference referenceField)
  | some (_, .integer n) => .ok (String.ofList (Json.writeInteger n))
  | some (_, .number x) => .ok (String.ofList (Json.writeNumber x))
  | some (_, .string s) =>
    if s = "" then .error (.malformedReference referenceField (.string s)) else .ok s
  | some (_, value) => .error (.malformedReference referenceField value)

/-- The fields in the members of an object. -/
def fieldsOf (members : List (String × Json)) (referenceField : String) :
    SortedMap String String :=
  SortedMap.ofList (members.filterMap fun m =>
    if m.1 = referenceField then none else (fieldText? m.2).map fun text => (m.1, text))

/-- The document of a JSON value, whose reference is under the key `referenceField`. -/
def ofJson (value : Json) (referenceField : String) : Except Error Document :=
  match value with
  | .object members =>
    match referenceOf members referenceField with
    | .ok reference => .ok ⟨reference, fieldsOf members referenceField⟩
    | .error fault => .error (.document fault)
  | _ => .error (.document (.notAnObject value))

/-! ### Several documents -/

/-- The documents of a list of values, up to the first that is refused. -/
def ofJsons (referenceField : String) : List Json → Except Error (List Document)
  | [] => .ok []
  | value :: rest => do
    let d ← ofJson value referenceField
    let ds ← ofJsons referenceField rest
    return d :: ds

/-- The documents of a list of lines, up to the first that is refused. -/
def ofLines (referenceField : String) : List String → Except Error (List Document)
  | [] => .ok []
  | line :: rest =>
    if Text.isBlankText line then ofLines referenceField rest
    else match Json.parse? line with
      | none => .error .json
      | some value => do
        let d ← ofJson value referenceField
        let ds ← ofLines referenceField rest
        return d :: ds

/-- The lines of a text. A carriage return before the end of a line stays in the line, where it
counts as white space. -/
def lines (text : String) : List String :=
  (Text.splitWhere (fun c => decide (c = '\n')) text.toList).map String.ofList

/-- The documents of a text: an array if its first character other than white space is a bracket,
and one document per line otherwise. -/
def parseMany (text referenceField : String) : Except Error (List Document) :=
  let trimmed := Text.trimStart text
  if trimmed.toList.head? = some '[' then
    match Json.parse? trimmed with
    | some (.array values) => ofJsons referenceField values
    | _ => .error .json
  else ofLines referenceField (lines text)

/-! ### As a record -/

/-- The JSON form of a document as a record. -/
def toJson (d : Document) : Json :=
  .object [("reference", .string d.reference), ("fields", .ofMap .string d.fields)]

open Json.Raw (required? record? string? map?)

/-- Reads the JSON form of a document as a record. -/
def ofRecord? (r : Json.Raw) : Option Document := do
  match ← record? ["reference", "fields"] r with
  | [reference, fields] =>
    return {
      reference := ← required? string? reference
      fields := ← required? (map? string?) fields }
  | _ => none

end Document

end FullText
