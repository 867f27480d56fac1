import SelectorCatalog.Compiler.Failure
import SelectorCatalog.Json.Writer

/-!
# One run of the compiler

The compiler is a program that reads its input document and writes its answer. What a run comes to
is a `ProcessOutcome`; `ProcessOutcome.answer` reads the document that it wrote, or tells why there
is none.
-/

set_option autoImplicit false

namespace SelectorCatalog

/-- What a run of the compiler comes to. -/
inductive ProcessOutcome where
  /-- The time budget was spent and the process killed. -/
  | timedOut
  | cannotExecute (reason : String)
  /-- The user interrupted the run. -/
  | interrupted
  | exited (code : Int) (output complaint : String)

/-- How the compiler is called. -/
structure Invocation where
  binary : String
  input : Value
  budget : Double

namespace Invocation

/-- The program and its arguments. -/
def arguments (i : Invocation) : List String := [i.binary, "--standard-json"]

/-- The text that the program reads. -/
def inputText (i : Invocation) : String := Json.write i.input

end Invocation

/-- The text from its first brace on, if something stands before it. -/
def afterBanner? (output : String) : Option String :=
  match output.toList.takeWhile (· != '\x7b'), output.toList.dropWhile (· != '\x7b') with
  | _ :: _, rest => if rest.isEmpty then none else some (String.ofList rest)
  | [], _ => none

/-- The document that the compiler wrote. Old releases print a banner in front of it. -/
def decodeOutput (output : String) : Except (Stop CompileFailure) Value :=
  match Json.parse output with
  | .ok v => .ok v
  | .error (.badDocument _) =>
    match (afterBanner? output).map Json.parse with
    | some (.ok v) => .ok v
    | some (.error (.badDocument _)) | none => .error (.failure (.unreadable output))
    | some (.error f) => .error (.fault f)
  | .error f => .error (.fault f)

/-- The answer of a run. -/
def ProcessOutcome.answer (i : Invocation) : ProcessOutcome → Except (Stop CompileFailure) Value
  | timedOut => .error (.failure (.timeout i.budget))
  | cannotExecute reason => .error (.failure (.cannotExecute i.binary reason))
  | interrupted => .error (.fault .interrupted)
  | exited code output complaint =>
    if code = 0 then decodeOutput output else .error (.failure (.exited code complaint))

/-- A way to run the compiler. What a run comes to may depend on the runs before it, of which the
state knows. -/
def Runner (σ : Type) : Type := Invocation → σ → ProcessOutcome × σ

end SelectorCatalog
