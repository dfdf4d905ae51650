import FullText.Command.Files
import FullText.Command.Report
import FullText.Text.ControlSequence

/-!
# Running commands

A command works on a store of files. It comes to a report or to a failure, it may leave a file
changed, and it tells what it does in messages of different levels. A failure is shown with the
circumstances in which it arose. The outcome of a command line is what is printed, the exit code,
and the files that are left.

An index is built with the pipeline for English text, and is read with it.

## Main definitions

* `Failure` : why a command fails.
* `LogLine` : a message with its level.
* `Execution` : what a command does.
* `Command.execute` : executes a command.
* `Outcome`, `runWords` : executes a command line.
-/

namespace FullText

/-! ### Failures and messages -/

/-- Why a command fails. -/
inductive Failure
  /-- The file for the index exists. -/
  | outputExists (path : String)
  /-- A required field is not among the fields. -/
  | unknownRequired (name : String)
  /-- The file of documents cannot be read. -/
  | reading (path : String) (fault : StorageFault)
  /-- The documents are malformed. -/
  | parsing (path : String) (error : Error)
  /-- The index cannot be written. -/
  | writing (path : String) (error : Error)
  /-- The index cannot be read. -/
  | loading (path : String) (error : Error)
  /-- Something else. -/
  | other (error : Error)

/-- The wording of a failure. -/
def Failure.message : Failure → String
  | outputExists path => path ++ " already exists. Use --force to overwrite."
  | unknownRequired name => s!"--require names `{name}`, which is not an indexed --field"
  | reading path fault => s!"failed to read {path}: " ++ fault.message
  | parsing path error => s!"failed to parse {path}: " ++ error.message
  | writing path error => s!"failed to write {path}: " ++ error.message
  | loading path error => s!"failed to load index {path}: " ++ error.message
  | other error => error.message

/-- The levels of messages. -/
inductive LogLevel
  /-- Something is not as it should be. -/
  | warn
  /-- What is being done. -/
  | info
  /-- How it is done. -/
  | debug
  /-- Every step of it. -/
  | trace
  deriving DecidableEq

/-- The name of a level. -/
def LogLevel.name : LogLevel → String
  | warn => "WARN"
  | info => "INFO"
  | debug => "DEBUG"
  | trace => "TRACE"

/-- The least amount of output with which the messages of a level are shown. -/
def LogLevel.threshold : LogLevel → Nat
  | warn => 1
  | info => 2
  | debug => 3
  | trace => 4

/-- A message. -/
structure LogLine where
  /-- The level. -/
  level : LogLevel
  /-- The text. -/
  text : String

/-- The line of a message. -/
def LogLine.line (l : LogLine) : String := "[" ++ l.level.name ++ "] " ++ l.text

/-- What a command does. -/
structure Execution where
  /-- The files that are left. -/
  store : FileStore
  /-- The messages, in order. -/
  log : List LogLine
  /-- The result. -/
  result : Except Failure Report

/-! ### Building an index -/

/-- The fields with those marked that are required, or the first name that is not among them. -/
def markRequired (fields : List FieldConfig) : List String → Except Failure (List FieldConfig)
  | [] => .ok fields
  | name :: rest =>
    if fields.any fun f => f.name = name then
      let marked := fields.map fun f => if f.name = name then { f with required := true } else f
      markRequired marked rest
    else .error (.unknownRequired name)

/-- The configuration that the words of a command describe. -/
def IndexCommand.config (c : IndexCommand) : Except Failure Config := do
  let fields ← markRequired c.fields c.required
  let config : Config := ⟨c.referenceField, fields, c.lengthNormalization⟩
  match config.fault? with
  | some fault => .error (.other (.config fault))
  | none => return config

/-- The documents that a command reads. -/
def IndexCommand.documents (c : IndexCommand) (store : FileStore) (config : Config) :
    Except Failure (List Document) :=
  match store.readText c.file with
  | .error fault => .error (.reading c.file fault)
  | .ok text =>
    match Document.parseMany text config.referenceField with
    | .error e => .error (.parsing c.file e)
    | .ok ds => .ok ds

/-- The message on the documents that were read. -/
def readMessage (c : IndexCommand) (ds : List Document) : LogLine :=
  ⟨.info, "Read " ++ writeNat ds.length ++ " documents from " ++ c.file⟩

/-- The message on the index that was built. -/
def builtMessage (index : Index) : LogLine :=
  ⟨.debug, "Built index: " ++ writeNat index.documentCount.toNat ++ " documents, " ++
    writeNat index.config.fields.length ++ " fields, " ++ writeNat index.inverted.termCount ++
    " terms"⟩

/-- The message on the file that was written. -/
def savedMessage (c : IndexCommand) : LogLine := ⟨.debug, "Saved index snapshot to " ++ c.output⟩

/-- The report on an index that was built. -/
def buildReport (c : IndexCommand) (index : Index) (size : Nat) : BuildReport where
  path := c.output
  documents := index.documentCount.toNat
  fields := index.config.fieldNames
  terms := index.inverted.termCount
  snapshotBytes := size

/-- Builds an index of documents and writes it. -/
def IndexCommand.buildAndWrite (c : IndexCommand) (store : FileStore) (config : Config)
    (ds : List Document) : Execution :=
  match Index.build config .english ds with
  | .error e => ⟨store, [readMessage c ds], .error (.other e)⟩
  | .ok index =>
    let contents := index.fileContents c.output
    match store.write c.output contents with
    | .error fault =>
      ⟨store, [readMessage c ds, builtMessage index], .error (.writing c.output (.storage fault))⟩
    | .ok store =>
      ⟨store, [readMessage c ds, builtMessage index, savedMessage c],
        .ok (.built (buildReport c index contents.length))⟩

/-- Builds an index from a file of documents. -/
def IndexCommand.execute (c : IndexCommand) (store : FileStore) : Execution :=
  if store.fileExists c.output && !c.force then ⟨store, [], .error (.outputExists c.output)⟩
  else match c.config with
    | .error f => ⟨store, [], .error f⟩
    | .ok config =>
      match c.documents store config with
      | .error f => ⟨store, [], .error f⟩
      | .ok ds => c.buildAndWrite store config ds

/-! ### Reading an index -/

/-- The message on a snapshot of another version. -/
def versionMessages (s : Snapshot) : List LogLine :=
  if s.version = formatVersion then []
  else [⟨.warn, "Snapshot was written by version " ++ s.version ++
    " and is being read by version " ++ formatVersion⟩]

/-- The message on an index that was restored. -/
def restoredMessage (index : Index) : LogLine :=
  ⟨.debug, "Restored index with " ++ writeNat index.documentCount.toNat ++ " documents"⟩

/-- The index in a file, with the messages on the way to it. -/
def loadIndex (store : FileStore) (path : String) : List LogLine × Except Failure Index :=
  match store.read path with
  | .error fault => ([], .error (.loading path (.storage fault)))
  | .ok contents =>
    match Snapshot.ofFileContents path contents with
    | .error e => ([], .error (.loading path e))
    | .ok s =>
      match s.restore .english with
      | .error e => (versionMessages s, .error (.loading path e))
      | .ok index => (versionMessages s ++ [restoredMessage index], .ok index)

/-! ### Looking up a query -/

/-- The message on a clause that was expanded. -/
def expandedMessage (e : Expansion) : LogLine :=
  ⟨.trace, "Clause `" ++ e.clause.display ++ "` expanded to " ++ writeNat e.found.size ++ " terms"⟩

/-- The message on a clause of which nothing is left. -/
def removedMessage (c : Clause) : LogLine :=
  ⟨.trace, "Clause `" ++ c.display ++ "` removed by the token pipeline"⟩

/-- The messages on expanding the clauses that a clause stands for, up to the first that is
refused. -/
def expansionMessages (index : Index) (cs : List Clause) : List LogLine :=
  ((cs.map index.expandOne).takeWhile Except.isOk).filterMap fun e =>
    e.toOption.map expandedMessage

/-- The messages on looking up a clause. -/
def clauseMessages (index : Index) (c : Clause) : List LogLine :=
  match c.fault? index.config with
  | some _ => []
  | none =>
    let normal := index.normalize c
    if normal.isEmpty then [removedMessage c] else expansionMessages index normal

/-- The messages on looking up a list of clauses, up to the first that is refused. -/
def queryMessages (index : Index) : List Clause → List LogLine
  | [] => []
  | c :: rest =>
    clauseMessages index c ++
      if (index.expandClause c).isOk then queryMessages index rest else []

/-- The messages on looking up a query. -/
def searchMessages (index : Index) (query : String) : List LogLine :=
  match index.parse query with
  | .error _ => []
  | .ok cs => queryMessages index cs

/-- A result without the matches of each field. -/
def SearchResult.withoutFields (r : SearchResult) : SearchResult :=
  { r with matchData := { r.matchData with fields := .empty } }

/-- The report on the results of a query. -/
def searchReport (c : SearchCommand) (results : List SearchResult) : SearchReport where
  query := c.query
  totalHits := results.length
  hits :=
    let shown := results.take c.limit
    if c.explain then shown else shown.map SearchResult.withoutFields

/-- Looks up a query. -/
def SearchCommand.execute (c : SearchCommand) (store : FileStore) : Execution :=
  match loadIndex store c.index with
  | (log, .error f) => ⟨store, log, .error f⟩
  | (log, .ok index) =>
    let log := log ++ searchMessages index c.query
    match index.search c.query with
    | .error e => ⟨store, log, .error (.other e)⟩
    | .ok results => ⟨store, log, .ok (.found (searchReport c results))⟩

/-- Shows the numbers of an index. -/
def executeStats (path : String) (store : FileStore) : Execution :=
  match loadIndex store path with
  | (log, .error f) => ⟨store, log, .error f⟩
  | (log, .ok index) => ⟨store, log, .ok (.stats index.stats)⟩

/-- The paths that a command reads or writes. -/
def Command.paths : Command → List String
  | .index c => [c.file, c.output]
  | .search c => [c.index]
  | .stats path => [path]

/-- The path that a command writes, if it writes any. -/
def Command.target? : Command → Option String
  | .index c => some c.output
  | _ => none

/-- Executes a command. -/
def Command.execute (store : FileStore) : Command → Execution
  | .index c => c.execute store
  | .search c => c.execute store
  | .stats path => executeStats path store

/-! ### Command lines -/

/-- The name of the program, as it calls itself. -/
def programName : String := "kestrel"

/-- A short text on the use of the program. -/
def usageText : String := unlines [
  "Build and query full-text search index snapshots",
  "",
  "Usage: " ++ programName ++ " [OPTIONS] <COMMAND>",
  "",
  "Commands:",
  "  index   Build an index snapshot from a document file",
  "  search  Search an index snapshot",
  "  stats   Show index statistics",
  "  help    Print this message or the help of the given subcommand(s)"]

/-- What is left after a command line was executed. -/
structure Outcome where
  /-- The files. -/
  store : FileStore
  /-- The exit code. -/
  code : Nat
  /-- The output. -/
  output : String
  /-- The messages and the wording of a failure. -/
  errors : String

/-- The outcome of a command line that is not executed. -/
def usageOutcome (store : FileStore) : Usage.Fault → Outcome
  | .help => ⟨store, 0, usageText, ""⟩
  | .version => ⟨store, 0, programName ++ " " ++ formatVersion ++ "\n", ""⟩
  | fault => ⟨store, 2, "", "error: " ++ fault.name ++ "\n\n" ++ usageText⟩

/-- The messages that are shown, as text. Each is freed of control characters and sequences, its
line end included: a sequence without an end takes the line end with it. -/
def logText (verbosity : Nat) (log : List LogLine) : String :=
  String.join ((log.filter fun l => decide (l.level.threshold ≤ verbosity)).map fun l =>
    Text.withoutControls (l.line ++ "\n"))

/-- The outcome of an execution that took the given time. -/
def Execution.outcome (style : OutputStyle) (milliseconds : Nat) (e : Execution) : Outcome :=
  match e.result with
  | .ok r => ⟨e.store, 0, r.write style milliseconds, logText style.verbosity e.log⟩
  | .error f =>
    ⟨e.store, 1, "", logText style.verbosity e.log ++ "Error: " ++ f.message ++ "\n"⟩

/-- Executes a command line. -/
def runWords (store : FileStore) (words : List String) (milliseconds : Nat) : Outcome :=
  match Options.parse words with
  | .error fault => usageOutcome store fault
  | .ok options => (options.command.execute store).outcome options.style milliseconds

end FullText
