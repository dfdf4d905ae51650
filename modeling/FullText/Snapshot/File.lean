import FullText.Snapshot.Binary
import FullText.Snapshot.Text

/-!
# Snapshot files

The name of a snapshot file decides about its format: names with the extension `json`, in any case,
hold a JSON text, and all others hold bytes. The extension is what follows the last point in the
last part of the path. A name whose only point is its first character has no extension.

## Main definitions

* `SnapshotFormat.ofPath` : the format of a file.
* `Snapshot.fileContents`, `Snapshot.ofFileContents` : what a snapshot file holds.
* `Index.fileContents`, `Index.ofFileContents` : the same for an index.
-/

namespace FullText

/-- The two formats of snapshots. -/
inductive SnapshotFormat
  /-- A JSON text. -/
  | json
  /-- Bytes. -/
  | binary
  deriving DecidableEq

namespace SnapshotFormat

/-- The parts of a path, less those that do not change it. -/
def pathParts (path : String) : List (List Char) :=
  (Text.splitWhere (fun c => decide (c = '/')) path.toList).filter fun part =>
    decide (part ≠ [] ∧ part ≠ ['.'])

/-- The extension of a file name, if it has one. -/
def extension? (name : List Char) : Option (List Char) :=
  if name = ['.', '.'] then none
  else
    let tail := name.reverse.takeWhile fun c => decide (c ≠ '.')
    if tail.length + 1 < name.length then some tail.reverse else none

/-- The format of the file with the given path. -/
def ofPath (path : String) : SnapshotFormat :=
  match (pathParts path).getLast?.bind extension? with
  | some extension =>
    if extension.map Char.toLower = ['j', 's', 'o', 'n'] then json else binary
  | none => binary

end SnapshotFormat

/-- What the file of an index with the given path holds. -/
def Index.fileContents (path : String) (index : Index) : Bytes :=
  match SnapshotFormat.ofPath path with
  | .json => index.toText.toUTF8.toList
  | .binary => index.toBytes

/-- The snapshot in a file with the given path. -/
def Snapshot.ofFileContents (path : String) (contents : Bytes) : Except Error Snapshot :=
  match SnapshotFormat.ofPath path with
  | .json =>
    match String.fromUTF8? contents.toByteArray with
    | none => .error (.storage .notText)
    | some text =>
      match Snapshot.parse? text with
      | some s => .ok s
      | none => .error .json
  | .binary =>
    match Snapshot.read contents with
    | some (s, _) => .ok s
    | none => .error .binary

/-- The index in a file with the given path. -/
def Index.ofFileContents (path : String) (contents : Bytes) (pipeline : Pipeline) :
    Except Error Index := do
  let s ← Snapshot.ofFileContents path contents
  s.restore pipeline

end FullText
