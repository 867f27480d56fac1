import SelectorCatalog.Compiler.Failure

/-!
# Compiler output

The document that the compiler writes lists what it found, errors and warnings, and has the
contracts of every source and the syntax trees. Compiler releases differ in what they leave out.
-/

set_option autoImplicit false

namespace SelectorCatalog

/-- A contract of a compiled source. -/
structure CompiledContract where
  name : String
  sourceFile : String
  /-- The entries of the interface. -/
  abi : Value
  /-- The selectors by signature as the compiler reports them. -/
  methodIdentifiers : Value

/-- What the compiler found. -/
structure Findings where
  warnings : List String
  errors : List String

namespace CompilerOutput

/-- One finding: whether it is an error, and its text. -/
def finding (v : Value) : Except Fault (Bool × String) := do
  let formatted ← v.field "formattedMessage"
  let plain ← v.field "message"
  let text := (formatted.orElse plain).orElse (.text v.quoted)
  let severity ← v.field "severity"
  return (severity.isText "error", Text.trim (← text.asText))

/-- What an answer says was found. -/
def findings (output : Value) : Except Fault Findings := do
  let found ← (← (← output.fieldD "errors" (.list [])).parts).mapM finding
  return ⟨(found.filter fun f => !f.1).map Prod.snd, (found.filter fun f => f.1).map Prod.snd⟩

/-- Whether every error has a line to show. -/
def shownErrors (errors : List String) : Except Fault CompileFailure :=
  if errors.all fun e => (Text.firstLine? e).isSome then .ok (.diagnostics errors)
  else .error .emptySequence

/-- One contract of an answer. -/
def contractOf (sourceFile : String) (m : String × Value) : Except Fault CompiledContract := do
  let evm := (← m.2.field "evm").orElse (.object [])
  let abi := (← m.2.field "abi").orElse (.list [])
  let identifiers := (← evm.field "methodIdentifiers").orElse (.object [])
  return ⟨m.1, sourceFile, abi, identifiers⟩

/-- The contracts of an answer, in order. -/
def contracts (output : Value) : Except Fault (List CompiledContract) := do
  let files ← (← output.fieldD "contracts" (.object [])).members
  let found ← files.mapM fun file => do (← file.2.members).mapM (contractOf file.1)
  return found.flatten

/-- The syntax tree of one source, under the member that newer or older releases use. -/
def treeOf (source : Value) : Except Fault Value := do
  return (← source.field "ast").orElse (← source.field "legacyAST")

/-- The syntax trees of an answer by source. -/
def trees (output : Value) : Except Fault (OrderedMap Value) := do
  let files ← (← output.fieldD "sources" (.object [])).members
  let found ← files.mapM fun file => return (file.1, ← treeOf file.2)
  return OrderedMap.ofList (found.filter fun t => t.2.isGiven)

end CompilerOutput

end SelectorCatalog
