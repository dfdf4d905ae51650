import FullText.Bytes
import FullText.Command.Place
import FullText.Error
import FullText.SortedMap
import FullText.Snapshot.File

/-!
# Files

The commands of the program read and write files. A store tells what stands at each place: a file
with its contents, or a folder. A path leads from place to place, down to a name or up, and each
place on its way must be a folder. The folder that the program is started in exists, and so do the
folders above it. Names and paths are of limited length.

## Main definitions

* `FileEntry` : a file with its contents, or a folder.
* `FileStore` : what stands at each place.
* `FileStore.read`, `FileStore.readText` : what a file holds.
* `FileStore.write` : the store after a file is written.
* `FileStore.fileExists` : whether a path leads to something.
-/

namespace FullText

/-- What stands at a path. -/
inductive FileEntry
  /-- A folder. -/
  | folder
  /-- A file with its contents. -/
  | file (contents : Bytes)
  deriving DecidableEq

/-! ### The store -/

/-- The greatest number of bytes in a name. -/
def nameLimit : Nat := 255

/-- The greatest number of bytes in a path. -/
def pathLimit : Nat := 4095

/-- What stands at each place that has a name. -/
structure FileStore where
  /-- The entries. -/
  entries : SortedMap Place FileEntry
  deriving DecidableEq

namespace FileStore

/-- The store in which nothing stands. -/
def empty : FileStore := ⟨.empty⟩

/-- The store with an entry in place. -/
def put (s : FileStore) (p : Place) (e : FileEntry) : FileStore := ⟨s.entries.insert p e⟩

/-- What stands at a place. A place that is reached by going up only is a folder. -/
def entryAt (s : FileStore) (p : Place) : Except StorageFault (Option FileEntry) :=
  match p.names with
  | [] => .ok (some .folder)
  | name :: _ =>
    if nameLimit < name.utf8ByteSize then .error .nameTooLong else .ok (s.entries.get? p)

/-- What stands at the last of a list of places, each of which but the last must be a folder. -/
def follow (s : FileStore) : List Place → Except StorageFault (Option FileEntry)
  | [] => .ok none
  | [last] => s.entryAt last
  | place :: rest =>
    match s.entryAt place with
    | .ok (some .folder) => s.follow rest
    | .ok (some (.file _)) => .error .notDirectory
    | .ok none => .error .notFound
    | .error fault => .error fault

/-- What a path leads to. -/
def locate (s : FileStore) (path : String) : Except StorageFault (Option FileEntry) :=
  if '\x00' ∈ path.toList then .error .nullCharacter
  else if pathLimit < path.utf8ByteSize then .error .nameTooLong
  else
    match s.follow (places path) with
    | .ok (some (.file contents)) =>
      if asksForFolder path then .error .notDirectory else .ok (some (.file contents))
    | found => found

/-- What a file holds. -/
def read (s : FileStore) (path : String) : Except StorageFault Bytes := do
  match ← s.locate path with
  | some (.file contents) => .ok contents
  | some .folder => .error .isDirectory
  | none => .error .notFound

/-- The text that a file holds. -/
def readText (s : FileStore) (path : String) : Except StorageFault String := do
  let contents ← s.read path
  match String.fromUTF8? contents.toByteArray with
  | some text => .ok text
  | none => .error .notText

/-- Whether a path leads to something. -/
def fileExists (s : FileStore) (path : String) : Bool :=
  match s.locate path with
  | .ok found => found.isSome
  | .error _ => false

/-- The store after a file is written. All of its earlier contents are replaced. -/
def write (s : FileStore) (path : String) (contents : Bytes) : Except StorageFault FileStore := do
  match ← s.locate path with
  | some .folder => .error .isDirectory
  | some (.file _) => .ok (s.put (destination path) (.file contents))
  | none =>
    if asksForFolder path then .error .isDirectory
    else .ok (s.put (destination path) (.file contents))

end FileStore

end FullText
