import FullText.Config
import FullText.Document
import FullText.FieldIndex
import FullText.Pipeline

/-!
# The inverted index

An inverted index holds the index of each configured field. It is built from documents in one go:
the documents are recorded one after another, and the weights of the terms are computed when all
of them are in.

## Main definitions

* `InvertedIndex` : the field indexes with the configuration.
* `InvertedIndex.build` : the index of a list of documents.
* `InvertedIndex.configuredFields` : the field indexes in the order of the configuration.
* `InvertedIndex.stats` : the numbers of documents and terms.
-/

namespace FullText

/-- The indexes of all fields. -/
structure InvertedIndex where
  /-- The configuration. -/
  config : Config
  /-- The number of documents. -/
  documentCount : UInt64
  /-- The field indexes, by name. -/
  fields : SortedMap String FieldIndex
  deriving DecidableEq

/-- The numbers of a field index. -/
structure FieldStats where
  /-- The name of the field. -/
  name : String
  /-- The number of terms. -/
  vocabularySize : Nat
  /-- The mean length. -/
  averageLength : Binary64
  deriving DecidableEq

/-- The numbers of an index. -/
structure IndexStats where
  /-- The number of documents. -/
  documentCount : Nat
  /-- The numbers of the fields, in the order of the configuration. -/
  fields : List FieldStats
  deriving DecidableEq

namespace InvertedIndex

/-- The index of no documents. -/
def empty (config : Config) : InvertedIndex :=
  ⟨config, 0, .ofList (config.fieldNames.map fun name => (name, .empty))⟩

/-! ### Building -/

/-- The tokens of a field of a document. -/
def fieldTokens (pipeline : Pipeline) (d : Document) (name : String) : List Token :=
  ((d.field? name).map pipeline.analyze).getD []

/-- Records the fields of a document, given their names. -/
def addFields (pipeline : Pipeline) (d : Document) (fields : SortedMap String FieldIndex)
    (names : List String) : SortedMap String FieldIndex :=
  names.foldl (fun fields name => fields.modify name fun f =>
    f.addDocument d.reference (fieldTokens pipeline d name)) fields

/-- Records a document. -/
def addDocument (pipeline : Pipeline) (index : InvertedIndex) (d : Document) : InvertedIndex :=
  { index with fields := addFields pipeline d index.fields index.config.fieldNames }

/-- Sets the number of documents and computes the weights of all terms. -/
def finish (n : Nat) (index : InvertedIndex) : InvertedIndex :=
  { index with
    documentCount := UInt64.ofNat n
    fields := index.fields.mapValues (FieldIndex.weigh n) }

/-- The index of a list of documents. -/
def build (config : Config) (pipeline : Pipeline) (documents : List Document) : InvertedIndex :=
  finish documents.length (documents.foldl (addDocument pipeline) (empty config))

/-! ### Access -/

/-- The index of a field. -/
def field? (index : InvertedIndex) (name : String) : Option FieldIndex := index.fields.get? name

/-- The posting of a term in a field. -/
def posting? (index : InvertedIndex) (field term : String) : Option Posting :=
  (index.field? field).bind fun f => f.posting? term

/-- The field indexes in the order of the configuration. -/
def configuredFields (index : InvertedIndex) : List (String × FieldIndex) :=
  index.config.fieldNames.filterMap fun name => (index.field? name).map fun f => (name, f)

/-- The numbers of the index. -/
def stats (index : InvertedIndex) : IndexStats where
  documentCount := index.documentCount.toNat
  fields := index.configuredFields.map fun (name, f) =>
    ⟨name, f.vocabularySize, f.averageLength⟩

/-- The number of terms in all configured fields. -/
def termCount (index : InvertedIndex) : Nat :=
  index.configuredFields.foldl (fun n (_, f) => n + f.vocabularySize) 0

/-- Whether two configurations of a field are equal as texts and numbers. -/
def sameFieldConfig (f g : FieldConfig) : Bool :=
  f.name = g.name && f.boost.same g.boost && f.required = g.required

/-- Whether two configurations are equal as texts and numbers. -/
def sameConfig (c d : Config) : Bool :=
  c.referenceField = d.referenceField && c.fields.length = d.fields.length &&
    (c.fields.zip d.fields).all (fun (f, g) => sameFieldConfig f g) &&
    c.lengthNormalization.same d.lengthNormalization

/-- Whether two indexes are equal as texts, numbers and lists. A NaN equals nothing, and the two
zeros are equal. -/
def same (i j : InvertedIndex) : Bool :=
  sameConfig i.config j.config && i.documentCount = j.documentCount &&
    i.fields.keys = j.fields.keys &&
    (i.fields.values.zip j.fields.values).all fun (f, g) => f.same g

/-! ### JSON form -/

/-- The JSON form. -/
def toJson (index : InvertedIndex) : Json :=
  .object [
    ("config", index.config.toJson),
    ("document_count", .ofNat index.documentCount.toNat),
    ("fields", .ofMap FieldIndex.toJson index.fields)]

open Json.Raw (required? record? uint64? map?)

/-- Reads the JSON form. -/
def ofJson? (r : Json.Raw) : Option InvertedIndex := do
  match ← record? ["config", "document_count", "fields"] r with
  | [config, documentCount, fields] =>
    return ⟨← required? Config.ofJson? config, ← required? uint64? documentCount,
      ← required? (map? FieldIndex.ofJson?) fields⟩
  | _ => none

end InvertedIndex

end FullText
