import FullText.Bytes
import FullText.Index.Builder
import FullText.InvertedIndex.Consistency

/-!
# Snapshots

A snapshot is an inverted index in a form that can be stored, together with the version of the
format and a description of the pipeline. A pipeline itself cannot be stored: whoever reads a
snapshot supplies one, and its signature must be the recorded one. An index that is read is checked
for consistency before it is used.

## Main definitions

* `Snapshot` : the stored form of an index.
* `Snapshot.ofIndex`, `Snapshot.restore` : from an index to its snapshot and back.
-/

namespace FullText

/-- The version of the format. -/
def formatVersion : String := "0.1.0"

/-- The stored form of an index. -/
structure Snapshot where
  /-- The version of the format. -/
  version : String
  /-- The names of the filters of the pipeline. -/
  filterNames : List String
  /-- The signature of the pipeline. -/
  signature : List String
  /-- The index itself. -/
  inverted : InvertedIndex
  deriving DecidableEq

namespace Snapshot

/-- The snapshot of an index. -/
def ofIndex (index : Index) : Snapshot :=
  ⟨formatVersion, index.pipeline.filterNames, index.pipeline.signature, index.inverted⟩

/-- The index of a snapshot. The pipeline must be the one that the index was built with, as far as
signatures tell. A snapshot of another version is accepted. -/
def restore (s : Snapshot) (pipeline : Pipeline) : Except Error Index :=
  if pipeline.signature ≠ s.signature then
    .error (.snapshot (.pipelineMismatch s.signature pipeline.signature))
  else match s.inverted.fault? with
    | some e => .error e
    | none => .ok ⟨s.inverted, pipeline⟩

end Snapshot

end FullText
