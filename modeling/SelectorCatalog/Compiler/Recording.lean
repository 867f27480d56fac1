import SelectorCatalog.Compiler.Process
import SelectorCatalog.Json.Shape

/-!
# Recorded compiler runs

Where no compiler can be run, recorded runs stand in for it. A recording is chosen by the sources
that a run is about, and repeated runs on one input take its outcomes one after the other, the last
one for good.
-/

set_option autoImplicit false

namespace SelectorCatalog

/-- Recorded outcomes of the runs about one source, or about any. -/
structure RecordedRuns where
  source : Option String
  outcomes : List ProcessOutcome

/-- How often each input was run. -/
abbrev RunCounts := List (String × Nat)

namespace RecordedRuns

/-- Whether a recording is about an input. -/
def isAbout (input : Value) (r : RecordedRuns) : Bool :=
  match r.source with
  | none => true
  | some path => match input.field "sources" >>= Value.members with
    | .ok ms => (Assoc.get? path ms).isSome
    | .error _ => false

/-- The outcome of the run with a number. -/
def outcome (r : RecordedRuns) (number : Nat) : Option ProcessOutcome :=
  match r.outcomes[number]? with
  | some o => some o
  | none => r.outcomes.getLast?

/-- The outcome of a run that nothing is recorded about. -/
def unrecorded : ProcessOutcome := .exited 1 "" "no rule"

/-- Runs the compiler by recordings. -/
def runner (recordings : List RecordedRuns) : Runner RunCounts := fun i counts =>
  let input := i.inputText
  let number := (Assoc.get? input counts).getD 0
  let outcome := (recordings.find? (isAbout i.input)).bind fun r => r.outcome number
  (outcome.getD unrecorded, Assoc.set input (number + 1) counts)

/-- The number of runs. -/
def total (counts : RunCounts) : Nat := Assoc.total counts

end RecordedRuns

end SelectorCatalog
