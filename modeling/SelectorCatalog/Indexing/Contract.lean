import SelectorCatalog.Database.Commit
import SelectorCatalog.Functions.Extraction

/-!
# Indexing one contract

A contract is compiled and its functions are extracted. Whatever goes wrong becomes a failed outcome
with a kind and a message; only the user's interrupt is none.
-/

set_option autoImplicit false

namespace SelectorCatalog

namespace Contract

/-- The outcome of a contract that failed. -/
def failedOutcome (c : Contract) (kind message : String) : IndexOutcome FunctionRecord where
  contractId := c.id
  status := .failed
  errorKind := some kind
  errorMessage := some message

/-- The outcome of a contract that was indexed. -/
def indexedOutcome (c : Contract) (functions : List FunctionRecord) :
    IndexOutcome FunctionRecord where
  contractId := c.id
  status := .indexed
  functions := functions

/-- The label of faults among the kinds of failure. -/
def unexpectedKind : String := "unexpected_error"

/-- The outcome of a contract that a fault stopped; `none` for an interrupt. -/
def faultOutcome? (c : Contract) : Fault → Option (IndexOutcome FunctionRecord)
  | .interrupted => none
  | f => some (c.failedOutcome unexpectedKind f.report)

/-- The outcome of a contract that was compiled. -/
def compiledOutcome? (c : Contract) (compilation : Compilation) :
    Option (IndexOutcome FunctionRecord) :=
  match compilation.failure with
  | some f => some (c.failedOutcome f.kind.label f.message)
  | none => match Extraction.functions c.id compilation c.name with
    | .ok functions => some (c.indexedOutcome functions)
    | .error (.failure f) => some (c.failedOutcome f.kind.label f.message)
    | .error (.fault f) => c.faultOutcome? f

/-- Indexes a contract; `none` if the user interrupts. -/
def index {σ : Type} (tools : Toolchain) (run : Runner σ) (c : Contract) (s : σ) :
    Option (IndexOutcome FunctionRecord) × σ :=
  match c.compile tools run s with
  | (.ok compilation, s) => (c.compiledOutcome? compilation, s)
  | (.error f, s) => (c.faultOutcome? f, s)

end Contract

end SelectorCatalog
