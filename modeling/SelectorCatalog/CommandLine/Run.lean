import SelectorCatalog.CommandLine.Command
import SelectorCatalog.Config.Settings
import SelectorCatalog.Export.Write
import SelectorCatalog.Workspace.Basic

/-!
# Running a command

A command line is run on a workspace: settings are put together, the database is opened where a
command needs it, and the command tells how it went by its exit code. Faults that no command
provides for end the run without one.
-/

set_option autoImplicit false

namespace SelectorCatalog.CommandLine

/-- How a run ended. -/
inductive Ending where
  | exited (code : Nat) (output : String)
  /-- A fault that the program does not provide for ended it. -/
  | faulted (fault : Fault)

namespace Ending

/-- The command did what it was asked for. -/
def success (output : String) : Ending := exited 0 output

/-- The command failed, or some of its work did. -/
def failure : Ending := exited 1 ""

/-- The command line or the settings cannot be used. -/
def misuse : Ending := exited 2 ""

/-- The user interrupted the command. -/
def interrupted : Ending := exited 130 ""

/-- Success or failure without output. -/
def ofSuccess (succeeded : Bool) : Ending := if succeeded then success "" else failure

/-- The ending that a fault brings to a command. -/
def ofFault : Fault → Ending
  | .interrupted => interrupted
  | f => faulted f

/-- The ending that a stopped step on the database brings. -/
def ofStop : Stop StorageFailure → Ending
  | .failure _ => failure
  | .fault f => ofFault f

end Ending

/-! ## Settings -/

/-- The layer of the program's own options. -/
def Request.layer (r : Request) : List (String × Datum) :=
  let text (o : Option String) : Datum := (o.map Datum.text).getD .null
  let (workers, budget) := match r.command with
    | .index _ workers budget _ _ _ _ => (workers, budget)
    | _ => (none, none)
  [(Setting.databasePath.label, text r.databasePath),
    (Setting.binaryDirectory.label, text r.binaryDirectory),
    (Setting.workers.label, (workers.map Datum.int).getD .null),
    (Setting.budget.label, (budget.map Datum.double).getD .null)]

/-- The layer of the size of chunks that a command is given. -/
def Command.chunkLayer : Command → Option (List (String × Datum))
  | .load _ _ chunk _ => some [(Setting.loadChunk.label, (chunk.map Datum.int).getD .null)]
  | .index chunk _ _ _ _ _ _ => some [(Setting.indexChunk.label, (chunk.map Datum.int).getD .null)]
  | _ => none

/-- The settings of a request. -/
def Request.settings {σ : Type} (r : Request) (w : Workspace σ) : Except Fault RunSettings := do
  let base ← RunSettings.load (.standard w.processors) w.files r.settingsFile w.environment
    w.readSettings
  let s ← base.override r.layer
  match r.command.chunkLayer with
  | some layer => s.override layer
  | none => return s

/-- Whether a fault in the settings makes them unusable. -/
def isMisuse (f : Fault) : Bool := f.isFileFault || f.isValueFault

/-! ## Commands -/

variable {σ : Type}

/-- Fetches compilers. -/
def runDownload (w : Workspace σ) (s : RunSettings) (releases : Option (List String)) :
    Ending × Workspace σ :=
  let cache := w.cacheIn (w.binaryDirectory s.binaryDirectory)
  let (result, cache) := BinaryStore.download w.site releases cache
  let w := w.withCache cache
  match result with
  | .ok summary => (.ofSuccess summary.succeeded, w)
  | .error (.failure _) => (.misuse, w)
  | .error (.fault f) => (.ofFault f, w)

/-- The corpus under the roots that are given. -/
def corpusOf (t : Tree) (answers folders : Option String) : CorpusStream :=
  let read (reader : Tree → String → CorpusStream) (root : Option String) : CorpusStream :=
    match root.filter fun s => !s.isEmpty with
    | some root => reader t root
    | none => {}
  (read Corpus.answerRecords answers).append (read Corpus.folderRecords folders)

/-- Whether a root is given. -/
def isGivenRoot (root : Option String) : Bool := root.any fun s => !s.isEmpty

/-- Loads a corpus. -/
def runLoad (t : Tree) (s : RunSettings) (answers folders : Option String) (ignoreErrors : Bool)
    (db : Database) : Ending × Database :=
  if !isGivenRoot answers && !isGivenRoot folders then (.misuse, db)
  else
    let (result, db) := db.load ⟨s.loadChunk, ignoreErrors⟩ (corpusOf t answers folders)
    match result with
    | .ok summary => (.ofSuccess (summary.failed == 0 || ignoreErrors), db)
    | .error (.failure _) => (.failure, db)
    | .error (.fault f) => (.ofFault f, db)

/-- Indexes functions. -/
def runIndex (w : Workspace σ) (s : RunSettings) (options : IndexOptions) (ignoreErrors : Bool)
    (db : Database) : Ending × IndexState σ :=
  let retries : RetryBudget := ⟨s.crashRetries.toNat, s.timeoutRetries.toNat⟩
  let x := w.indexer (w.binaryDirectory s.binaryDirectory) s.budget retries
  let (result, state) := x.index options ⟨db, w.compiler⟩
  match result with
  | .ok summary => (.ofSuccess (summary.succeeded || ignoreErrors), state)
  | .error stop => (.ofStop stop, state)

/-- The lines of the statistics. -/
def statisticsText (db : Database) : String :=
  let counts := db.statusCounts.entries
  let line (indent : String) (e : String × Nat) := indent ++ e.1 ++ ": " ++ toString e.2 ++ "\n"
  line "" ("contracts", Assoc.total counts)
    ++ String.join (counts.map (line "  "))
    ++ String.join (db.failureCounts.entries.map (line "    "))
    ++ line "" ("functions", db.countFunctions none)

/-- Runs a command that works on the database. -/
def runOn (w : Workspace σ) (s : RunSettings) (command : Command) (l : Option Location)
    (db : Database) : Ending × Workspace σ :=
  match command with
  | .download _ => (.success "", w)
  | .load answers folders _ ignoreErrors =>
    let (ending, db) := runLoad w.files s answers folders ignoreErrors db
    (ending, w.saveDatabase l db)
  | .index _ _ _ reindex retryFailed limit ignoreErrors =>
    let options : IndexOptions := {
      chunkSize := s.indexChunk, workers := s.workers, reindex, retryFailed, limit }
    let (ending, state) := runIndex w s options ignoreErrors db
    (ending, { w.saveDatabase l state.db with compiler := state.compiler })
  | .exportSource id output =>
    let (result, files) := Export.exportContract db id output w.files
    let ending := match result with
      | .ok folder => .success (folder.render ++ "\n")
      | .error (.failure _) => .failure
      | .error (.fault f) => .ofFault f
    (ending, { w with files })
  | .statistics => (.success (statisticsText db), w)

/-- Runs a command with its settings. -/
def runCommand (w : Workspace σ) (s : RunSettings) (command : Command) : Ending × Workspace σ :=
  match s.databasePath.filter fun p => !p.isEmpty with
  | none => (.misuse, w)
  | some path =>
    match command with
    | .download releases => runDownload w s releases
    | command =>
      match w.openDatabase path with
      | (.error stop, w) => (.ofStop stop, w)
      | (.ok (l, db), w) => runOn w s command l db

/-- Makes the log file of a request. -/
def openLog (w : Workspace σ) (log : Option String) : Except Fault Unit × Workspace σ :=
  match log.filter fun p => !p.isEmpty with
  | none => (.ok (), w)
  | some path =>
    let p := (Path.ofText path).collapsed
    match w.files.find p with
    | .ok (.file _) => (.ok (), w)
    | _ =>
      let (result, files) := Tree.write p [] w.files
      (result, { w with files })

/-- Runs a request. -/
def runRequest (w : Workspace σ) (r : Request) : Ending × Workspace σ :=
  match openLog w r.logFile with
  | (.error f, w) => (.faulted f, w)
  | (.ok (), w) =>
    match r.settings w with
    | .ok s => runCommand w s r.command
    | .error f => (if isMisuse f then .misuse else .faulted f, w)

/-- Runs a command line. -/
def run (w : Workspace σ) (arguments : List String) : Ending × Workspace σ :=
  match Request.read arguments with
  | .ok r => runRequest w r
  | .error .usage => (.misuse, w)
  | .error (.announced text) => (.success text, w)

end SelectorCatalog.CommandLine
