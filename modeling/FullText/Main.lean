import FullText.Command.Run

/-!
# The program

The program reads the files that its command line names, executes the command on them, writes the
file that the command leaves changed, and prints its output and its messages. Everything else is
decided by `Options.parse` and `Command.execute`.

## Main definitions

* `loadStore` : the store of the files at some paths.
* `runProgram` : executes a command line.
-/

namespace FullText

/-- What stands at a path of the file system. -/
def probe (path : String) : IO (Option FileEntry) := do
  try
    let contents ← IO.FS.readBinFile path
    return some (.file contents.toList)
  catch
    | .noFileOrDirectory .. => return none
    | .inappropriateType .. => return some .folder
    | e => throw e

/-- The store with what stands at some places, up to the first that is no folder. -/
def loadPlaces (store : FileStore) : List Place → IO FileStore
  | [] => return store
  | place :: rest => do
    match store.entryAt place with
    | .error _ => return store
    | .ok (some .folder) => loadPlaces store rest
    | .ok _ =>
      match ← probe place.path with
      | some .folder => loadPlaces (store.put place .folder) rest
      | some e => return store.put place e
      | none => return store

/-- The store of the files at some paths. -/
def loadStore (paths : List String) : IO FileStore :=
  paths.foldlM (fun store path => loadPlaces store (places path)) .empty

/-- Writes the file at a path as it is in the store. -/
def saveFile (store : FileStore) (path : String) : IO Unit :=
  match store.read path with
  | .ok contents => IO.FS.writeBinFile path contents.toByteArray
  | .error _ => return ()

/-- Prints what a command line comes to. -/
def printOutcome (o : Outcome) : IO UInt32 := do
  IO.print o.output
  IO.eprint o.errors
  return UInt32.ofNat o.code

/-- Executes a command, measuring the time that it takes. -/
def runOptions (options : Options) : IO UInt32 := do
  let store ← loadStore options.command.paths
  let start ← IO.monoMsNow
  let execution ← IO.lazyPure fun _ => options.command.execute store
  if execution.result.isOk then
    options.command.target?.forM (saveFile execution.store)
  let stop ← IO.monoMsNow
  printOutcome (execution.outcome options.style (stop - start))

/-- Executes a command line. -/
def runProgram (words : List String) : IO UInt32 :=
  match Options.parse words with
  | .ok options => runOptions options
  | .error fault => printOutcome (usageOutcome .empty fault)

end FullText

/-- The program. -/
def main (words : List String) : IO UInt32 := FullText.runProgram words
