import FullText.Error
import FullText.Text.Blank
import FullText.Json.Interpretation

/-!
# Configurations

A configuration names the key that holds the reference of a document, the indexed fields in order,
each with its boost, and the strength of length normalization. It is stored with every index.

A configuration that is read or put together need not be usable. `Config.fault?` finds the first
reason why it is not: the reference field is looked at first, then the fields in order, and the
length normalization last.

## Main definitions

* `FieldConfig`, `Config` : the configuration of a field and of an index.
* `Config.fault?`, `Config.validate` : the check.
* `Config.toJson`, `Config.ofJson?` : the JSON form.
-/

namespace FullText

/-- The configuration of a field. -/
structure FieldConfig where
  /-- The name, as used in documents and queries. -/
  name : String
  /-- The factor for all contributions of the field to a score. -/
  boost : Binary64
  /-- Whether every document must have text for the field. -/
  required : Bool
  deriving DecidableEq

/-- The configuration of an index. -/
structure Config where
  /-- The key that holds the reference of a document. -/
  referenceField : String
  /-- The indexed fields, in order. -/
  fields : List FieldConfig
  /-- The strength of length normalization, from zero to one. -/
  lengthNormalization : Binary64
  deriving DecidableEq

namespace Config

/-- The first field with a name. -/
def field? (c : Config) (name : String) : Option FieldConfig :=
  c.fields.find? fun f => f.name = name

/-- The names of the fields, in order. -/
def fieldNames (c : Config) : List String := c.fields.map (·.name)

/-- Whether a field may not have a name: it holds a colon or white space. -/
def isMalformedName (name : String) : Bool :=
  name.toList.any fun c => c = ':' || Text.isBlank c

/-- What is wrong with a field, given the names of the fields before it. -/
def fieldFault? (seen : List String) (f : FieldConfig) : Option ConfigFault :=
  if f.name = "" then some .emptyFieldName
  else if isMalformedName f.name then some (.malformedFieldName f.name)
  else if f.name ∈ seen then some (.repeatedField f.name)
  else if f.boost.isPositiveFinite then none
  else some (.fieldBoost f.name f.boost)

/-- The first thing wrong with a list of fields. -/
def fieldsFault? (seen : List String) : List FieldConfig → Option ConfigFault
  | [] => none
  | f :: rest =>
    match fieldFault? seen f with
    | some fault => some fault
    | none => fieldsFault? (f.name :: seen) rest

/-- The first thing wrong with a configuration. -/
def fault? (c : Config) : Option ConfigFault :=
  if c.referenceField = "" then some .emptyReferenceField
  else if c.fields = [] then some .noFields
  else match fieldsFault? [] c.fields with
    | some fault => some fault
    | none =>
      if Binary64.zero.lessOrSame c.lengthNormalization &&
          c.lengthNormalization.lessOrSame Binary64.one then none
      else some (.lengthNormalization c.lengthNormalization)

/-- Accepts the configurations with which an index can be used. -/
def validate (c : Config) : Except Error Unit :=
  match c.fault? with
  | some fault => .error (.config fault)
  | none => .ok ()

end Config

/-! ### JSON form -/

open Json.Raw (required? record? string? binary64? bool? list?)

/-- The JSON form of a field. -/
def FieldConfig.toJson (f : FieldConfig) : Json :=
  .object [("name", .string f.name), ("boost", .number f.boost), ("required", .bool f.required)]

/-- Reads the JSON form of a field. -/
def FieldConfig.ofJson? (r : Json.Raw) : Option FieldConfig := do
  match ← record? ["name", "boost", "required"] r with
  | [name, boost, required] =>
    return {
      name := ← required? string? name
      boost := ← required? binary64? boost
      required := ← required? bool? required }
  | _ => none

/-- The JSON form of a configuration. -/
def Config.toJson (c : Config) : Json :=
  .object [
    ("reference_field", .string c.referenceField),
    ("fields", .array (c.fields.map FieldConfig.toJson)),
    ("scoring", .object [("length_normalization", .number c.lengthNormalization)])]

/-- Reads the JSON form of the scoring parameters. -/
def Config.scoringOfJson? (r : Json.Raw) : Option Binary64 := do
  match ← record? ["length_normalization"] r with
  | [b] => required? binary64? b
  | _ => none

/-- Reads the JSON form of a configuration. -/
def Config.ofJson? (r : Json.Raw) : Option Config := do
  match ← record? ["reference_field", "fields", "scoring"] r with
  | [reference, fields, scoring] =>
    return {
      referenceField := ← required? string? reference
      fields := ← required? (list? FieldConfig.ofJson?) fields
      lengthNormalization := ← required? scoringOfJson? scoring }
  | _ => none

end FullText
