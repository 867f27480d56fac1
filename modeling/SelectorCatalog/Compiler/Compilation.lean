import SelectorCatalog.Compiler.Input
import SelectorCatalog.Compiler.Output
import SelectorCatalog.Compiler.Process

/-!
# Compiling a contract

A contract is compiled by finding the binary of its release, running it as often as the retry
budgets allow, and reading the answer. Crashes and spent time budgets have a budget of further
attempts each; all other failures are final at once. A failure is part of the result, and only
faults stop the run.
-/

set_option autoImplicit false

namespace SelectorCatalog

/-- What is known after compiling a contract. -/
structure Compilation where
  contractId : String
  compilerVersion : Option String
  contracts : List CompiledContract := []
  /-- Syntax trees by source. -/
  trees : OrderedMap Value := .empty
  sources : OrderedMap String
  warnings : List String := []
  failure : Option CompileFailure := none
  /-- How often the compiler was run. -/
  attempts : Nat := 0

/-- Whether a contract compiled. -/
def Compilation.succeeded (c : Compilation) : Bool := c.failure.isNone

/-- How often the compiler may be run again. -/
structure RetryBudget where
  crashes : Nat := 1
  timeouts : Nat := 0
  deriving DecidableEq, Inhabited

/-- How a contract is compiled: where the binary of a declared version is, and the budgets. -/
structure Toolchain where
  binaryOf : Option String → Except (Stop CompileFailure) String
  budget : Double
  retries : RetryBudget

/-- An attempt that was the last one. -/
structure LastAttempt (σ : Type) where
  result : Except (Stop CompileFailure) Value
  /-- How many attempts there were. -/
  attempts : Nat
  state : σ

/-- One attempt to get an answer. What it comes to may depend on the attempts before it, of which
the state knows. -/
def Attempt (σ : Type) : Type := σ → Except (Stop CompileFailure) Value × σ

/-- Attempts until one answers, one stops for another reason than a crash or a spent time budget, or
a budget of further attempts is spent. -/
def retrying {σ : Type} (attempt : Attempt σ) (crashes timeouts : Nat) (s : σ) : LastAttempt σ :=
  let (answer, s) := attempt s
  match answer with
  | .error (.failure f) =>
    if f.isCrash then
      match crashes with
      | 0 => ⟨.error (.failure f), 1, s⟩
      | crashes + 1 =>
        let last := retrying attempt crashes timeouts s
        { last with attempts := last.attempts + 1 }
    else if f.isTimeout then
      match timeouts with
      | 0 => ⟨.error (.failure f), 1, s⟩
      | timeouts + 1 =>
        let last := retrying attempt crashes timeouts s
        { last with attempts := last.attempts + 1 }
    else ⟨.error (.failure f), 1, s⟩
  | result => ⟨result, 1, s⟩
  termination_by crashes + timeouts

/-- A run of the compiler as an attempt. -/
def Runner.attempt {σ : Type} (run : Runner σ) (i : Invocation) : Attempt σ := fun s =>
  let (outcome, s) := run i s
  (outcome.answer i, s)

/-- Runs the compiler until it answers, a fault stops it or a budget is spent. -/
def runWithRetries {σ : Type} (run : Runner σ) (i : Invocation) (crashes timeouts : Nat) (s : σ) :
    LastAttempt σ :=
  retrying (run.attempt i) crashes timeouts s

namespace Contract

/-- A compilation of the contract about which nothing is known yet. -/
def compilation (c : Contract) : Compilation where
  contractId := c.id
  compilerVersion := c.compilerVersion
  sources := c.sourceMap

end Contract

namespace Compilation

/-- What the compiler's answer adds to a compilation. -/
def withOutput (c : Compilation) (output : Value) : Except Fault Compilation := do
  let found ← CompilerOutput.findings output
  if found.errors.isEmpty then
    let contracts ← CompilerOutput.contracts output
    let trees ← CompilerOutput.trees output
    let failure := if contracts.isEmpty then some .noContracts else none
    return { c with warnings := found.warnings, contracts, trees, failure }
  else
    let failure ← CompilerOutput.shownErrors found.errors
    return { c with warnings := found.warnings, failure := some failure }

/-- A compilation that an attempt ended. -/
def ofAttempt (c : Compilation) (attempts : Nat) :
    Except (Stop CompileFailure) Value → Except Fault Compilation
  | .ok output => { c with attempts }.withOutput output
  | .error (.failure f) => .ok { c with attempts, failure := some f }
  | .error (.fault f) => .error f

end Compilation

/-- Compiles a contract. -/
def Contract.compile {σ : Type} (tools : Toolchain) (run : Runner σ) (c : Contract) (s : σ) :
    Except Fault Compilation × σ :=
  match tools.binaryOf c.compilerVersion with
  | .error stop => (c.compilation.ofAttempt 0 (.error stop), s)
  | .ok binary =>
    let last := runWithRetries run ⟨binary, c.compilerInput, tools.budget⟩ tools.retries.crashes
      tools.retries.timeouts s
    (c.compilation.ofAttempt last.attempts last.result, last.state)

end SelectorCatalog
