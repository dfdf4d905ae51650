import FullText.Index

/-!
# Building an index

A builder collects documents and makes an index of them. A document is refused if its reference is
empty, if it has no text for a required field, or if there is a document with its reference
already. A refused document leaves the builder as it was.

## Main definitions

* `IndexBuilder` : the documents collected so far.
* `IndexBuilder.add`, `IndexBuilder.addAll` : collect documents.
* `IndexBuilder.build` : the index of the documents.
* `Index.build` : the index of a list of documents.
-/

namespace FullText

/-- The documents collected for an index. -/
structure IndexBuilder where
  /-- The configuration of the index. -/
  config : Config
  /-- The pipeline of the index. -/
  pipeline : Pipeline
  /-- The documents, in order. -/
  documents : List Document
  /-- The references of the documents. -/
  references : SortedSet String

namespace IndexBuilder

/-- A builder without documents. -/
def new (config : Config) (pipeline : Pipeline) : IndexBuilder := ⟨config, pipeline, [], .empty⟩

/-- The number of documents. -/
def size (b : IndexBuilder) : Nat := b.documents.length

/-- Whether a document has text for a field, other than white space. -/
def hasText (d : Document) (field : String) : Bool :=
  (d.field? field).any fun text => !Text.isBlankText text

/-- The first required field that a document has no text for. -/
def missingField? (config : Config) (d : Document) : Option String :=
  ((config.fields.filter (·.required)).find? fun f => !hasText d f.name).map (·.name)

/-- Why a document is refused. -/
def fault? (b : IndexBuilder) (d : Document) : Option Error :=
  if d.reference = "" then some (.document .emptyReference)
  else match missingField? b.config d with
    | some field => some (.missingField d.reference field)
    | none =>
      if b.references.contains d.reference then some (.duplicateReference d.reference) else none

/-- Collects a document. -/
def add (b : IndexBuilder) (d : Document) : Except Error IndexBuilder :=
  match b.fault? d with
  | some e => .error e
  | none => .ok { b with
      documents := b.documents ++ [d]
      references := SortedSet.add b.references d.reference }

/-- Collects documents up to the first that is refused. The builder that is left holds those
before it. -/
def addAll (b : IndexBuilder) : List Document → IndexBuilder × Option Error
  | [] => (b, none)
  | d :: rest =>
    match b.add d with
    | .ok b => b.addAll rest
    | .error e => (b, some e)

/-- The index of the documents. -/
def build (b : IndexBuilder) : Except Error Index := do
  b.config.validate
  return ⟨.build b.config b.pipeline b.documents, b.pipeline⟩

end IndexBuilder

/-- The index of a list of documents. -/
def Index.build (config : Config) (pipeline : Pipeline) (documents : List Document) :
    Except Error Index :=
  match (IndexBuilder.new config pipeline).addAll documents with
  | (b, none) => b.build
  | (_, some e) => .error e

end FullText
