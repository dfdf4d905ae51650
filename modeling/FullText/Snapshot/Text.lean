import FullText.Snapshot

/-!
# Snapshots as JSON texts

The JSON form of a snapshot is an object with the version, the names of the filters, the signature
of the pipeline, and the index. It can be written with or without indentation.

## Main definitions

* `Snapshot.toJson`, `Snapshot.ofJson?` : the JSON form.
* `Index.toText`, `Index.toIndentedText`, `Index.ofText` : writing and reading an index.
-/

namespace FullText

namespace Snapshot

/-- The JSON form. -/
def toJson (s : Snapshot) : Json :=
  .object [
    ("version", .string s.version),
    ("pipeline", .ofStrings s.filterNames),
    ("signature", .ofStrings s.signature),
    ("index", s.inverted.toJson)]

open Json.Raw (required? record? string? list?)

/-- Reads the JSON form. -/
def ofJson? (r : Json.Raw) : Option Snapshot := do
  match ← record? ["version", "pipeline", "signature", "index"] r with
  | [version, filterNames, signature, inverted] =>
    return ⟨← required? string? version, ← required? (list? string?) filterNames,
      ← required? (list? string?) signature, ← required? InvertedIndex.ofJson? inverted⟩
  | _ => none

/-- Reads a snapshot from a JSON text. -/
def parse? (text : String) : Option Snapshot := (Json.Raw.parse? text).bind ofJson?

end Snapshot

namespace Index

/-- The JSON text of an index. -/
def toText (index : Index) : String := (Snapshot.ofIndex index).toJson.compact

/-- The indented JSON text of an index. -/
def toIndentedText (index : Index) : String := (Snapshot.ofIndex index).toJson.pretty

/-- Reads an index from a JSON text. -/
def ofText (text : String) (pipeline : Pipeline) : Except Error Index :=
  match Snapshot.parse? text with
  | some s => s.restore pipeline
  | none => .error .json

end Index

end FullText
