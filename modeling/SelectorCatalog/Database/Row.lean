import SelectorCatalog.Contract.Basic
import SelectorCatalog.Functions.Record

/-!
# Rows

The database keeps one row per contract and one per function of an indexed contract. All columns are
texts that may be missing, but for the id and the status of a contract. Sources and settings are
kept as documents, and reading a row back may find that an older release has left something else
there. What a column makes of a value that is no text is the database's own affair (`TextCast`).
-/

set_option autoImplicit false

namespace SelectorCatalog

/-- How far a stored contract has come. -/
inductive ContractStatus where
  | pending
  | indexed
  | failed
  deriving DecidableEq, Inhabited

namespace ContractStatus

/-- The stored text of a status. -/
def label : ContractStatus → String
  | pending => "pending"
  | indexed => "indexed"
  | failed => "failed"

/-- All statuses. -/
def all : List ContractStatus := [pending, indexed, failed]

/-- The status of a stored text. -/
def ofLabel? (s : String) : Option ContractStatus := all.find? fun c => c.label == s

theorem ofLabel?_label (c : ContractStatus) : ofLabel? c.label = some c := by cases c <;> decide

theorem label_injective {c d : ContractStatus} (h : c.label = d.label) : c = d := by
  have same : ofLabel? c.label = ofLabel? d.label := by rw [h]
  rwa [ofLabel?_label, ofLabel?_label, Option.some.injEq] at same

/-- The status that a value stands for. -/
def ofValue : Value → Except Fault ContractStatus := Value.asCase ofLabel? "ContractStatus"

end ContractStatus

/-- The layout that a value stands for. -/
def SourceFormat.ofValue : Value → Except Fault SourceFormat :=
  Value.asCase SourceFormat.ofLabel? "SourceFormat"

/-- How the database writes a value that is no text into a column of texts. What counts as given
leaves something there. -/
structure TextCast where
  textOf : Value → String
  filled : ∀ v : Value, v.isGiven = true → textOf v ≠ ""

/-- The cast to the text of a message, with truth values in lower case. -/
def TextCast.plain : TextCast where
  textOf
    | .bool b => if b then "true" else "false"
    | v => v.display
  filled v given := by
    cases v with
    | bool b =>
      cases given
      decide
    | _ => exact Value.display_ne_empty given

instance : Inhabited TextCast := ⟨.plain⟩

/-- A value as a column holds it. Only texts and what is missing are kept as they are. -/
def Value.column (cast : TextCast) : Value → Option String
  | .null => none
  | .text s => some s
  | v => some (cast.textOf v)

/-- The row of a contract. -/
structure ContractRow where
  id : String
  address : Option String := none
  name : Option String := none
  compilerVersion : Option String := none
  sourceFormat : Option String := none
  sources : Option String := none
  settings : Option String := none
  constructorArgs : Option String := none
  status : String := "pending"
  errorKind : Option String := none
  errorMessage : Option String := none
  /-- Whether the contract was ever indexed, with or without success. -/
  wasIndexed : Bool := false
  deriving DecidableEq, Inhabited

namespace ContractRow

/-- The document that the sources of a contract are kept as. -/
def sourcesDocument (sources : List (String × String)) : Value :=
  .list (sources.map fun s => .list [.text s.1, .text s.2])

/-- The row of a contract that is stored for the first time. A contract that was given its id has
settings that can be written. -/
def ofContract (cast : TextCast) (c : Contract) : ContractRow where
  id := c.id
  address := c.address
  name := c.name
  compilerVersion := c.compilerVersion
  sourceFormat := some c.sourceFormat.label
  sources := some (Json.write (sourcesDocument c.sources))
  settings := some c.settings.toText
  constructorArgs := c.constructorArgs.column cast

/-- The document that a column holds. -/
def documentOf : Option String → Except Fault Value
  | some s => Json.parse s
  | none => .error .wrongType

/-- Path and content that a part of the sources document holds. -/
def sourceOf (part : Value) : Except Fault (String × String) := do
  match ← part.parts with
  | [.text path, .text content] => return (path, content)
  | [_, _] => throw .wrongType
  | _ :: _ :: _ :: _ => throw (.badValue "too many values to unpack (expected 2)")
  | few => throw (.badValue ("not enough values to unpack (expected 2, got "
      ++ toString few.length ++ ")"))

/-- The settings that a column holds. -/
def settingsOf : Option String → Except Fault CompilerSettings
  | some s => CompilerSettings.ofText s
  | none => .error .wrongType

/-- The contract of a row. -/
def contract (r : ContractRow) : Except Fault Contract := do
  let sourceFormat ← SourceFormat.ofValue (.ofText? r.sourceFormat)
  let sources ← (← (← documentOf r.sources).parts).mapM sourceOf
  let settings ← settingsOf r.settings
  Contract.withId {
    name := r.name
    compilerVersion := r.compilerVersion
    sources
    settings
    sourceFormat
    address := r.address
    constructorArgs := .ofText? r.constructorArgs
    id := r.id }

end ContractRow

/-- The row of a function. -/
structure FunctionRow where
  contractId : Option String := none
  selector : Option String := none
  signature : Option String := none
  functionName : Option String := none
  mutability : Option String := none
  visibility : Option String := none
  contractName : Option String := none
  declaringContract : Option String := none
  filename : Option String := none
  sourceCode : Option String := none
  deriving DecidableEq, Inhabited

namespace FunctionRow

/-- The row of a function record. -/
def ofRecord (cast : TextCast) (r : FunctionRecord) : FunctionRow where
  contractId := some r.contractId
  selector := some r.selector
  signature := some r.signature
  functionName := r.functionName.column cast
  mutability := some r.mutability.label
  visibility := some r.visibility.label
  contractName := r.contractName.column cast
  declaringContract := r.declaringContract.column cast
  filename := r.filename.column cast
  sourceCode := some r.sourceCode

/-- Whether the columns that a function must have are there. -/
def isComplete (r : FunctionRow) : Bool :=
  r.contractId.isSome && r.selector.isSome && r.signature.isSome

/-- The function record of a row. -/
def record (r : FunctionRow) : Except Fault FunctionRecord := do
  let mutability ← Mutability.ofValue (.ofText? r.mutability)
  let visibility ← Visibility.ofValue (.ofText? r.visibility)
  return {
    contractId := r.contractId.getD ""
    selector := r.selector.getD ""
    signature := r.signature.getD ""
    functionName := .ofText? r.functionName
    mutability
    visibility
    contractName := .ofText? r.contractName
    declaringContract := .ofText? r.declaringContract
    filename := .ofText? r.filename
    sourceCode := r.sourceCode.getD "" }

end FunctionRow

end SelectorCatalog
