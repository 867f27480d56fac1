import SelectorCatalog.Config.Document
import SelectorCatalog.Files.Tree

/-!
# Settings of a run

Settings are layered: defaults, a settings file, environment variables, and what the command line
gives. A higher layer replaces the values that it gives, each converted to the type of its setting,
and the result of every layer is checked.
-/

set_option autoImplicit false

namespace SelectorCatalog

/-- The settings of a run. -/
structure RunSettings where
  databasePath : Option String := none
  /-- The directory of compiler binaries. -/
  binaryDirectory : Option String := none
  loadChunk : Int := 500
  indexChunk : Int := 100
  workers : Int := 4
  /-- Seconds that one compilation may take. -/
  budget : Double
  crashRetries : Int := 1
  timeoutRetries : Int := 0
  deriving DecidableEq, Inhabited

/-- The names of settings. -/
inductive Setting where
  | databasePath
  | binaryDirectory
  | loadChunk
  | indexChunk
  | workers
  | budget
  | crashRetries
  | timeoutRetries
  deriving DecidableEq, Inhabited

namespace Setting

/-- The name of a setting in a settings file. -/
def label : Setting → String
  | databasePath => "duckdb_path"
  | binaryDirectory => "solc_dir"
  | loadChunk => "preprocess_chunk_size"
  | indexChunk => "index_chunk_size"
  | workers => "workers"
  | budget => "compile_timeout"
  | crashRetries => "crash_retries"
  | timeoutRetries => "timeout_retries"

/-- All settings. -/
def all : List Setting :=
  [databasePath, binaryDirectory, loadChunk, indexChunk, workers, budget, crashRetries,
    timeoutRetries]

/-- The setting of a name. -/
def ofLabel? (s : String) : Option Setting := all.find? fun x => x.label == s

theorem ofLabel?_label (x : Setting) : ofLabel? x.label = some x := by cases x <;> decide

/-- The settings that environment variables give, with the names of the variables. -/
def variableNames : List (String × Setting) :=
  [("DUCKDB_PATH", databasePath), ("SOLCX_BINARY_PATH", binaryDirectory),
    ("INDEXER_WORKERS", workers), ("INDEXER_COMPILE_TIMEOUT", budget)]

end Setting

namespace RunSettings

/-- The settings of a run on a machine with some processors, where no layer gives any. -/
def standard (processors : Int) : RunSettings where
  workers := processors
  budget := .ofRatio false 120 1

/-- The settings with one value converted and set. -/
def set (s : RunSettings) (x : Setting) (d : Datum) : Except Fault RunSettings :=
  match x with
  | .databasePath => d.toText.map fun p => { s with databasePath := some p }
  | .binaryDirectory => d.toText.map fun p => { s with binaryDirectory := some p }
  | .loadChunk => d.toInteger.map fun n => { s with loadChunk := n }
  | .indexChunk => d.toInteger.map fun n => { s with indexChunk := n }
  | .workers => d.toInteger.map fun n => { s with workers := n }
  | .budget => d.toDouble.map fun b => { s with budget := b }
  | .crashRetries => d.toInteger.map fun n => { s with crashRetries := n }
  | .timeoutRetries => d.toInteger.map fun n => { s with timeoutRetries := n }

/-- The settings with a value for a name. Nothing changes if the value is null. -/
def setNamed (s : RunSettings) (given : String × Datum) : Except Fault RunSettings :=
  match Setting.ofLabel? given.1, given.2 with
  | none, _ => .error (.badValue ("Unknown setting: " ++ given.1))
  | some _, .null => .ok s
  | some x, d => s.set x d

/-- The settings, if a run can be made with them. -/
def checked (s : RunSettings) : Except Fault RunSettings :=
  if s.loadChunk ≤ 0 || s.indexChunk ≤ 0 then .error (.badValue "Chunk sizes must be positive")
  else if s.workers ≤ 0 then .error (.badValue "workers must be positive")
  else if s.budget.nonPositive then .error (.badValue "compile_timeout must be positive")
  else if s.crashRetries < 0 || s.timeoutRetries < 0 then
    .error (.badValue "Retry counts cannot be negative")
  else .ok s

/-- The settings with a layer over them. -/
def override (s : RunSettings) (layer : List (String × Datum)) : Except Fault RunSettings := do
  (← layer.foldlM setNamed s).checked

/-- The layer that a mapping gives: its keys must be texts, and none of them the word `self`. -/
def layerOf (entries : List (Datum × Datum)) : Except Fault (List (String × Datum)) :=
  entries.mapM fun e => match e.1 with
    | .text name => if name == "self" then .error .wrongType else .ok (name, e.2)
    | _ => .error .wrongType

/-- The settings with the entries of a mapping over them. -/
def overrideMapping (s : RunSettings) (entries : List (Datum × Datum)) :
    Except Fault RunSettings := do
  s.override (← layerOf entries)

/-- The layer that the environment gives; an empty variable gives nothing. -/
def environmentLayer (environment : List (String × String)) : List (String × Datum) :=
  Setting.variableNames.filterMap fun v => match Assoc.get? v.1 environment with
    | some s => if s.isEmpty then none else some (v.2.label, .text s)
    | none => none

/-- The settings file that is read if none is named. -/
def standardFile : Path := .ofText "indexer.yaml"

/-- The settings with those of a file over them, whose bytes `readContent` reads. -/
def overrideFile (readContent : List UInt8 → Except Fault Datum) (s : RunSettings)
    (t : Tree) (file : Path) :
    Except Fault RunSettings := do
  let d ← readContent (← t.read file)
  if !d.isGiven then s.override []
  else match d with
    | .mapping entries => s.overrideMapping entries
    | _ => throw (.badValue ("Settings file " ++ file.render ++ " must contain a mapping"))

/-- The settings of a run before the command line: those of the named settings file, which must be
there, or of the standard one, and of the environment. -/
def load (standard : RunSettings) (t : Tree) (named : Option String)
    (environment : List (String × String))
    (readContent : List UInt8 → Except Fault Datum := Config.readSettings) :
    Except Fault RunSettings := do
  let given := named.filter fun s => !s.isEmpty
  let file := (given.map Path.ofText).getD standardFile
  let s ←
    if ← t.hasEntry file then overrideFile readContent standard t file
    else if given.isSome then throw .fileNotFound
    else pure standard
  s.override (environmentLayer environment)

end RunSettings

end SelectorCatalog
