import SelectorCatalog.Compiler.Compilation
import SelectorCatalog.Functions.Abi
import SelectorCatalog.Functions.SourceText
import SelectorCatalog.Functions.SyntaxIndex

/-!
# Functions of a compiled contract

The interface says which functions there are, and the syntax trees add visibility, declaring
contract and text. A selector that the compiler reports must be the one of the signature.
-/

set_option autoImplicit false

namespace SelectorCatalog

/-- Why no functions are extracted. -/
inductive ExtractionFailure where
  | missingContract (compilationId : String) (name : Value)
  | selectorMismatch (contractId signature computed reported : String)

namespace ExtractionFailure

/-- The kind of a failure. -/
def kind : ExtractionFailure → FailureKind
  | missingContract _ _ => .missingContract
  | selectorMismatch _ _ _ _ => .selectorMismatch

/-- The contract that a failure is about. -/
def contractId : ExtractionFailure → String
  | missingContract id _ => id
  | selectorMismatch id _ _ _ => id

/-- The words for a failure. -/
def message : ExtractionFailure → String
  | missingContract _ name => "Contract " ++ name.quoted ++ " not found in compiler output"
  | selectorMismatch _ signature computed reported =>
    signature ++ ": computed " ++ computed ++ ", solc reported 0x" ++ reported

end ExtractionFailure

namespace Extraction

/-- The place of a source among the sources; one that is not among them comes before all. -/
def rank (sources : OrderedMap String) (file : String) : Nat :=
  match (Assoc.names sources.entries).idxOf? file with
  | some i => i + 1
  | none => 0

/-- Of contracts, the one whose source comes last, and of one source the first. -/
def lastRanked (rank : String → Nat) : List CompiledContract → Option CompiledContract
  | [] => none
  | c :: rest => match lastRanked rank rest with
    | none => some c
    | some d => if rank c.sourceFile < rank d.sourceFile then some d else some c

/-- The compiled contract of a name. -/
def findPrimary (c : Compilation) (name : Option String) :
    Except ExtractionFailure CompiledContract :=
  match lastRanked (rank c.sources) (c.contracts.filter fun d => some d.name = name) with
  | some d => .ok d
  | none => .error (.missingContract c.contractId (Value.ofText? name))

/-- The selectors that the compiler reports, in lower case, by signature. -/
def reportedSelectors (c : CompiledContract) : Except Fault (List (String × String)) := do
  (← c.methodIdentifiers.members).mapM fun m => do
    let s ← m.2.asText
    return (m.1, Text.lower s)

/-- What is known while functions are extracted. -/
structure Context where
  selectorOf : String → String
  contractId : String
  primary : CompiledContract
  sources : OrderedMap String
  index : SyntaxIndex
  reported : List (String × String)

/-- The record of a function entry. -/
def recordOf (x : Context) (entry : Value) (signature selector : String) :
    Except Fault FunctionRecord := do
  let name ← entry.required "name"
  let declared ← x.index.lookup selector name (← Abi.parameterCount entry)
  let mutability ← Abi.mutability entry
  match declared with
  | some d =>
    let sourceCode ← sliceSource x.sources d.sourceFile d.range
    return ⟨x.contractId, selector, signature, name, mutability, d.visibility,
      .text x.primary.name, d.contractName, .text d.sourceFile, sourceCode⟩
  | none =>
    return ⟨x.contractId, selector, signature, name, mutability, x.index.defaultVisibility,
      .text x.primary.name, .text x.primary.name, .text x.primary.sourceFile, ""⟩

/-- Adds the record of an interface entry, unless its selector has one. -/
def addEntry (x : Context) (records : List FunctionRecord) (entry : Value) :
    Except (Stop ExtractionFailure) (List FunctionRecord) := do
  if !(← Stop.lift (Abi.isFunction entry)) then return records
  let signature ← Stop.lift (Abi.canonicalSignature entry)
  let selector := x.selectorOf signature
  match Assoc.get? signature x.reported with
  | some reported =>
    if "0x" ++ reported != selector then
      throw (.failure (.selectorMismatch x.contractId signature selector reported))
  | none => pure ()
  if records.any fun r => r.selector == selector then return records
  return records ++ [← Stop.lift (recordOf x entry signature selector)]

/-- Records in ascending order of selectors. -/
def sortRecords (records : List FunctionRecord) : List FunctionRecord :=
  records.mergeSort fun a b => decide (a.selector ≤ b.selector)

/-- The functions of the named contract of a compilation, in ascending order of selectors;
`selectorOf` gives the selector of a signature. -/
def functionsBy (selectorOf : String → String) (contractId : String) (c : Compilation)
    (name : Option String) : Except (Stop ExtractionFailure) (List FunctionRecord) := do
  let primary ← (findPrimary c name).mapError .failure
  let index ← Stop.lift (SyntaxIndex.ofContract c.trees primary.name primary.sourceFile)
  let reported ← Stop.lift (reportedSelectors primary)
  let entries ← Stop.lift primary.abi.parts
  let records ← entries.foldlM (addEntry ⟨selectorOf, contractId, primary, c.sources,
      index, reported⟩) []
  return sortRecords records

/-- The functions of the named contract of a compilation. -/
def functions (contractId : String) (c : Compilation) (name : Option String) :
    Except (Stop ExtractionFailure) (List FunctionRecord) :=
  functionsBy Abi.selector contractId c name

end Extraction

end SelectorCatalog
