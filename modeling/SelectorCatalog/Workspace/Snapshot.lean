import SelectorCatalog.Compiler.Recording
import SelectorCatalog.Config.Datum
import SelectorCatalog.Text.Base64
import SelectorCatalog.Workspace.Basic

/-!
# Snapshots of a workspace

A snapshot is a document that tells the files, the binaries at hand, the environment, recorded
compiler runs and the download site of a workspace, so that a run can be repeated anywhere.
-/

set_option autoImplicit false

namespace SelectorCatalog.Snapshot

/-- A member of a snapshot, null if it lacks it. -/
def member (name : String) (v : Value) : Value := (v.field name).toOption.getD .null

/-- The members of a value, none if it is no object. -/
def membersOf : Value → List (String × Value)
  | .object ms => ms
  | _ => []

/-- The items of a value, none if it is no list. -/
def itemsOf : Value → List Value
  | .list items => items
  | _ => []

/-- The text of a value, empty if it is none. -/
def textOf : Value → String
  | .text s => s
  | _ => ""

/-- The texts in a list. -/
def textsOf (v : Value) : List String := (itemsOf v).map textOf

/-- The whole number of a value, or another one if it is none. -/
def integerD (other : Int) : Value → Int
  | .int n => n
  | _ => other

/-- The number of a value, or another one if it is none. -/
def numberD (other : Double) (v : Value) : Double :=
  match v with
  | .null => other
  | _ => v.datum.toDouble.toOption.getD other

/-- Puts one file or empty directory into a tree. -/
def addFile (t : Tree) (file : String × Value) : Tree :=
  let p := Path.ofText file.1
  match file.2 with
  | .null => (Tree.makeDirectories p t).2
  | .text s => (Tree.place p (Text.utf8 s.toList) t).2
  | v => (Tree.place p (Text.base64Bytes (textOf (member "b64" v))) t).2

/-- The directory of binaries in a snapshot. -/
def binaries : Path := .ofText "solc"

/-- Puts the directory of binaries and a binary of each release into a tree. -/
def addBinaries (t : Tree) (releases : List String) : Tree :=
  releases.foldl (fun t release =>
    (Tree.place (binaries.join ⟨.relative, [Cache.binaryName release]⟩) [] t).2)
    (Tree.makeDirectories binaries t).2

/-- An outcome of a recorded run. -/
def outcomeOf (v : Value) : ProcessOutcome :=
  if (member "timeout" v).isGiven then .timedOut
  else if (member "interrupt" v).isGiven then .interrupted
  else match member "oserror" v with
    | .text s => .cannotExecute s
    | _ =>
      let output := match v.field? "output" with
        | .ok (some document) => Json.write document
        | _ => textOf (member "stdout" v)
      .exited (integerD 0 (member "returncode" v)) output (textOf (member "stderr" v))

/-- A recording. -/
def recordingOf (v : Value) : RecordedRuns where
  source := match member "path" v with
    | .text s => some s
    | _ => none
  outcomes := (itemsOf (member "outcomes" v)).map outcomeOf

/-- The recordings of a snapshot. -/
def recordings (v : Value) : List RecordedRuns := (itemsOf v).map recordingOf

/-- The download site of a snapshot. -/
def siteOf (offered failures : Value) : Site where
  offered := textsOf offered
  fetch _ release := match Assoc.get? release (membersOf failures) with
    | none => .fetched
    | some f =>
      if ["installation", "unsupported", "os"].contains (textOf (member "kind" f)) then
        .refused (textOf (member "message" f))
      else .crashed

/-- The workspace of a snapshot; `installed` are the binaries of one that does not tell them. -/
def workspace (installed : Option (List String)) (v : Value) : Workspace RunCounts :=
  let files := (membersOf (member "files" v)).foldl addFile {}
  let releases := match member "installed" v with
    | .null => installed
    | given => some (textsOf given)
  { files := (releases.map (addBinaries files)).getD files
    environment := (membersOf (member "env" v)).map fun e => (e.1, textOf e.2)
    site := siteOf (member "installable" v) (member "install" v)
    run := RecordedRuns.runner (recordings (member "solc" v))
    compiler := [] }

end SelectorCatalog.Snapshot
