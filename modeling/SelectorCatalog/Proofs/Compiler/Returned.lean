import SelectorCatalog.Proofs.Compiler.Retries
import SelectorCatalog.Proofs.Compiler.Shape
import SelectorCatalog.Proofs.Json.RoundTrip

/-!
# Failures to compile are results

Whatever the compiler does, a failure is part of what is known of the contract, and nothing stops
the run: not a binary that is missing, a process that crashes or takes too long, nor output that is
no document. The one exception is a document without the shape of an answer, which is a fault
(`Contract.compile_returns_iff`, `Contract.compile_stopped_by_list`).
-/

set_option autoImplicit false

namespace SelectorCatalog

/-! ## Runs of the compiler -/

/-- Reading a text meets no integer with more digits than are read. -/
def Json.KeepsDigitLimit (s : String) : Prop := ∀ n, Json.read s ≠ .error (.tooManyDigits n)

/-- A run that the user does not interrupt and whose output keeps the limit of digits, as a whole
and after a banner. -/
def ProcessOutcome.IsOrdinary : ProcessOutcome → Prop
  | interrupted => False
  | exited _ output _ =>
    Json.KeepsDigitLimit output ∧ ∀ rest, afterBanner? output = some rest →
      Json.KeepsDigitLimit rest
  | _ => True

theorem Json.KeepsDigitLimit.parse {s : String} (h : KeepsDigitLimit s) :
    FailsOnly (parse s) fun f => ∃ message, f = .badDocument message := by
  intro f failed
  unfold Json.parse at failed
  cases read : Json.read s with
  | ok v =>
    rw [read] at failed
    cases failed
  | error e =>
    cases e with
    | malformed what place =>
      rw [read] at failed
      cases failed
      exact ⟨_, rfl⟩
    | tooManyDigits n => exact absurd read (h n)

theorem decodeOutput_write {v : Value} (h : Json.Plain v) :
    decodeOutput (Json.write v) = .ok v := by
  rw [decodeOutput, Json.parse_write h]

theorem afterBanner?_write (ms : List (String × Value)) :
    afterBanner? (Json.write (.object ms)) = none := by
  simp [afterBanner?, Json.write]

theorem Json.KeepsDigitLimit.of_parse {s : String} {v : Value} (h : Json.parse s = .ok v) :
    KeepsDigitLimit s := by
  intro n tooMany
  rw [Json.parse, tooMany] at h
  cases h

/-- A run that writes a document is ordinary. -/
theorem ProcessOutcome.isOrdinary_written {ms : List (String × Value)}
    (h : Json.Plain (.object ms)) :
    (exited 0 (Json.write (.object ms)) "").IsOrdinary := by
  refine ⟨.of_parse (Json.parse_write h), fun rest banner => ?_⟩
  rw [afterBanner?_write] at banner
  cases banner

theorem decodeOutput_ne_fault {output : String} (whole : Json.KeepsDigitLimit output)
    (after : ∀ rest, afterBanner? output = some rest → Json.KeepsDigitLimit rest) (f : Fault) :
    decodeOutput output ≠ .error (.fault f) := by
  unfold decodeOutput
  split
  · simp
  · split
    · simp
    · simp
    · simp
    · rename_i g not_document failed
      obtain ⟨rest, banner, failed⟩ := Option.map_eq_some_iff.1 failed
      obtain ⟨message, rfl⟩ := (after rest banner).parse g failed
      exact absurd rfl (not_document message)
  · rename_i g not_document failed
    obtain ⟨message, rfl⟩ := whole.parse g failed
    exact absurd rfl (not_document message)

theorem ProcessOutcome.IsOrdinary.answer_ne_fault {o : ProcessOutcome} (h : o.IsOrdinary)
    (i : Invocation) (f : Fault) : o.answer i ≠ .error (.fault f) := by
  cases o with
  | interrupted => exact absurd h id
  | timedOut => simp [answer]
  | cannotExecute reason => simp [answer]
  | exited code output complaint =>
    simp only [answer]
    split
    · exact decodeOutput_ne_fault h.1 h.2 f
    · simp

theorem ProcessOutcome.answer_ok {o : ProcessOutcome} {i : Invocation} {document : Value}
    (h : o.answer i = .ok document) :
    ∃ output complaint, o = .exited 0 output complaint ∧ decodeOutput output = .ok document := by
  cases o with
  | exited code output complaint =>
    simp only [answer] at h
    split at h
    · rename_i zero
      exact ⟨output, complaint, by rw [zero], h⟩
    · cases h
  | _ => cases h

/-- **What the last attempt comes to is the answer of one of the runs.** -/
theorem runWithRetries_answers {σ : Type} (run : Runner σ) (i : Invocation)
    (crashes timeouts : Nat) (s : σ) :
    ∃ s', (runWithRetries run i crashes timeouts s).result = (run i s').1.answer i := by
  obtain ⟨n, -, -, eq⟩ := (run.attempt i).retrying_eq crashes timeouts s
  refine ⟨(run.attempt i).stateAfter s n, ?_⟩
  rw [runWithRetries, eq]
  rfl

section

variable {σ : Type} {run : Runner σ} {i : Invocation} {s : σ}

theorem runWithRetries_of_answer {document : Value} (h : (run i s).1.answer i = .ok document)
    (crashes timeouts : Nat) : (runWithRetries run i crashes timeouts s).result = .ok document := by
  rw [runWithRetries, retrying]
  simp only [Runner.attempt, h]

theorem runWithRetries_of_crash {f : CompileFailure}
    (h : (run i s).1.answer i = .error (.failure f)) (crash : f.isCrash = true)
    (crashes timeouts : Nat) :
    (runWithRetries run i (crashes + 1) timeouts s).result =
      (runWithRetries run i crashes timeouts (run i s).2).result := by
  rw [runWithRetries, retrying]
  simp only [Runner.attempt, h, crash, if_true]
  rfl

end

/-! ## Results about a contract -/

/-- Every failure to compile is of a kind of such failures. -/
theorem CompileFailure.compiling_mem_ancestors (f : CompileFailure) :
    FailureKind.compiling ∈ f.kind.ancestors := by
  cases f <;> exact List.mem_cons_self

/-- The result is about the contract, and if it tells of a failure, then of one to compile. -/
structure Compilation.IsResultFor (c : Contract) (r : Compilation) : Prop where
  contractId : r.contractId = c.id
  compilerVersion : r.compilerVersion = c.compilerVersion
  sources : r.sources = c.sourceMap
  failure : ∀ f, r.failure = some f → FailureKind.compiling ∈ f.kind.ancestors

namespace Compilation

variable {c : Contract} {r : Compilation}

theorem IsResultFor.withOutput (h : IsResultFor c r) (output : Value) :
    Yields (r.withOutput output) (IsResultFor c) := by
  have about (f : CompileFailure) := f.compiling_mem_ancestors
  refine .skip fun found => ?_
  split
  · exact .skip fun contracts => .skip fun trees =>
      .pure ⟨h.contractId, h.compilerVersion, h.sources, fun f _ => about f⟩
  · exact .skip fun failure => .pure ⟨h.contractId, h.compilerVersion,
      h.sources, fun f _ => about f⟩

theorem isResultFor_compilation (c : Contract) : IsResultFor c c.compilation :=
  ⟨rfl, rfl, rfl, fun f _ => f.compiling_mem_ancestors⟩

theorem IsResultFor.ofAttempt (h : IsResultFor c r) (attempts : Nat)
    (result : Except (Stop CompileFailure) Value) :
    Yields (r.ofAttempt attempts result) (IsResultFor c) := by
  have about (f : CompileFailure) := f.compiling_mem_ancestors
  have counted : IsResultFor c { r with attempts } :=
    ⟨h.contractId, h.compilerVersion, h.sources, h.failure⟩
  match result with
  | .ok output => exact counted.withOutput output
  | .error (.failure f) => exact .ok ⟨h.contractId, h.compilerVersion,
      h.sources, fun f _ => about f⟩
  | .error (.fault f) => exact .error f _

end Compilation

/-! ## Every run of the compiler -/

namespace Contract

variable {σ : Type} {tools : Toolchain} {run : Runner σ} {c : Contract} {s : σ}

/-- The document that the compiler wrote for a contract, if its binary is found and the last run
ends well with a document. -/
def answer? (tools : Toolchain) (run : Runner σ) (c : Contract) (s : σ) : Option Value :=
  match tools.binaryOf c.compilerVersion with
  | .error _ => none
  | .ok binary =>
    (runWithRetries run ⟨binary, c.compilerInput,
      tools.budget⟩ tools.retries.crashes tools.retries.timeouts s).result.toOption

/-- What the compiler answers is the output of one of its runs. -/
theorem exited_of_answer? {document : Value} (h : c.answer? tools run s = some document) :
    ∃ binary s' output complaint, tools.binaryOf c.compilerVersion = .ok binary ∧
      (run ⟨binary, c.compilerInput, tools.budget⟩ s').1 = .exited 0 output complaint ∧
      decodeOutput output = .ok document := by
  unfold answer? at h
  split at h
  · cases h
  · rename_i binary found
    obtain ⟨s', answered⟩ := runWithRetries_answers run ⟨binary, c.compilerInput, tools.budget⟩
      tools.retries.crashes tools.retries.timeouts s
    rw [answered] at h
    obtain ⟨output, complaint, exited, decoded⟩ := ProcessOutcome.answer_ok (ok_of_toOption h)
    exact ⟨binary, s', output, complaint, found, exited, decoded⟩

/-- **A contract is compiled by reading the answer, and a failure to get one is the result.** -/
theorem compile_cases (resolves : ∀ f, tools.binaryOf c.compilerVersion ≠ .error (.fault f))
    (ordinary : ∀ i s, (run i s).1.IsOrdinary) :
    (∃ document attempts, c.answer? tools run s = some document ∧
      (c.compile tools run s).1 = c.compilation.ofAttempt attempts (.ok document)) ∨
    (∃ failure attempts, c.answer? tools run s = none ∧
      (c.compile tools run s).1 =
        c.compilation.ofAttempt attempts (.error (.failure failure))) := by
  simp only [answer?, compile]
  cases found : tools.binaryOf c.compilerVersion with
  | error stop =>
    cases stop with
    | failure f => exact .inr ⟨f, 0, rfl, rfl⟩
    | fault f => exact absurd found (resolves f)
  | ok binary =>
    obtain ⟨s', answered⟩ := runWithRetries_answers run ⟨binary, c.compilerInput, tools.budget⟩
      tools.retries.crashes tools.retries.timeouts s
    dsimp only
    rw [answered]
    cases answer : (run ⟨binary, c.compilerInput, tools.budget⟩ s').1.answer
        ⟨binary, c.compilerInput, tools.budget⟩ with
    | ok document => exact .inl ⟨document, _, rfl, rfl⟩
    | error stop =>
      cases stop with
      | failure f => exact .inr ⟨f, _, rfl, rfl⟩
      | fault f => exact absurd answer ((ordinary _ s').answer_ne_fault _ f)

open CompilerOutput in
/-- **Compiling returns a result about the contract, whatever the compiler does, unless it answers
with a document that has not the shape of an answer.** -/
theorem compile_returns_iff (tools : Toolchain) (run : Runner σ) (c : Contract) (s : σ)
    (resolves : ∀ f, tools.binaryOf c.compilerVersion ≠ .error (.fault f))
    (ordinary : ∀ i s, (run i s).1.IsOrdinary) :
    let result := (c.compile tools run s).1
    let shaped := ∀ document, c.answer? tools run s = some document →
      ∃ ms, document = .object ms ∧ HasShape ms
    (shaped → ∃ compilation, result = .ok compilation ∧ compilation.IsResultFor c) ∧
    (¬shaped → ∃ f, result = .error f ∧ f.IsOfShape) ∧
    ∀ document, c.answer? tools run s = some document →
      ∃ binary s' output complaint, tools.binaryOf c.compilerVersion = .ok binary ∧
        (run ⟨binary, c.compilerInput, tools.budget⟩ s').1 = .exited 0 output complaint ∧
        decodeOutput output = .ok document := by
  intro result shaped
  have about := Compilation.isResultFor_compilation c
  refine ⟨fun h => ?_, fun h => ?_, fun document => exited_of_answer?⟩
  · obtain ⟨document, attempts, answered, read⟩ | ⟨failure, attempts, -, read⟩ :=
      compile_cases (s := s) resolves ordinary
    · obtain ⟨compilation, done⟩ :=
        (Compilation.succeeds_withOutput { c.compilation with attempts } document).2
          (h document answered)
      exact ⟨compilation, read.trans done, about.ofAttempt attempts (.ok document) _ done⟩
    · exact ⟨_, read, about.ofAttempt attempts (.error (.failure failure)) _ rfl⟩
  · obtain ⟨document, attempts, answered, read⟩ | ⟨failure, attempts, none, -⟩ :=
      compile_cases (s := s) resolves ordinary
    · cases done : { c.compilation with attempts }.withOutput document with
      | error f => exact ⟨f, read.trans done, Compilation.failsOnly_withOutput _ _ f done⟩
      | ok compilation =>
        refine absurd (fun other answered' => ?_) h
        cases answered.symm.trans answered'
        exact (Compilation.succeeds_withOutput _ _).1 ⟨compilation, done⟩
    · exact absurd (fun document answered => by rw [none] at answered; cases answered) h

/-! ## A crash, an answer and a list -/

/-- A toolchain that has one binary for all versions and runs it again after a crash. -/
def oneBinary : Toolchain := ⟨fun _ => .ok "solc", .zero false, { crashes := 1 }⟩

/-- An answer with one contract, which has nothing in it. -/
def emptyContract : List (String × Value) :=
  [("contracts", .object [("A.sol", .object [("A", .object [])])])]

/-- A runner whose first run crashes, and whose later runs write this answer. -/
def crashesOnce : Runner Bool
  | _, false => (.exited 1 "" "Killed", true)
  | _, true => (.exited 0 (Json.write (.object emptyContract)) "", true)

theorem plain_emptyContract : Json.Plain (.object emptyContract) :=
  .single (.single (.single (.object (by decide) (by simp))))

theorem isOrdinary_crashesOnce (i : Invocation) : ∀ s, (crashesOnce i s).1.IsOrdinary
  | false => ⟨fun n tooMany => (by cases tooMany), fun rest banner => (by cases banner)⟩
  | true => ProcessOutcome.isOrdinary_written plain_emptyContract

theorem answer?_crashesOnce (c : Contract) :
    c.answer? oneBinary crashesOnce false = some (.object emptyContract) := by
  have wrote (i : Invocation) : (crashesOnce i true).1.answer i = .ok (.object emptyContract) :=
    decodeOutput_write plain_emptyContract
  show (runWithRetries crashesOnce ⟨"solc", c.compilerInput,
      .zero false⟩ (0 + 1) 0 false).result.toOption = _
  rw [runWithRetries_of_crash rfl rfl]
  exact congrArg Except.toOption (runWithRetries_of_answer (wrote _) 0 0)

/-- The crash is forgotten and the answer is the result. -/
theorem compile_returns_emptyContract :
    (∀ f, oneBinary.binaryOf (default : Contract).compilerVersion ≠ .error (.fault f)) ∧
    (∀ i s, (crashesOnce i s).1.IsOrdinary) ∧
    (default : Contract).answer? oneBinary crashesOnce false = some (.object emptyContract) ∧
    ∃ compilation, ((default : Contract).compile oneBinary crashesOnce false).1 = .ok compilation ∧
      compilation.IsResultFor default := by
  have resolves (f : Fault) :
      oneBinary.binaryOf (default : Contract).compilerVersion ≠ .error (.fault f) := by
    intro same
    cases same
  have answered := answer?_crashesOnce default
  refine ⟨resolves, isOrdinary_crashesOnce, answered, ?_⟩
  have returns :=
    compile_returns_iff oneBinary crashesOnce default false resolves isOrdinary_crashesOnce
  refine returns.1 fun document found => ?_
  cases answered.symm.trans found
  exact (Compilation.succeeds_withOutput (default : Contract).compilation _).1 ⟨_, rfl⟩

/-- A runner that always writes a text and ends well. -/
def writesOnly (output : String) : Runner Unit := fun _ s => (.exited 0 output "", s)

/-- **A list is a document and has not the shape of an answer.** The compiler is found, its runs are
ordinary and end well, and compiling ends with a fault. -/
theorem compile_stopped_by_list :
    (∀ i s, (writesOnly "[]" i s).1.IsOrdinary) ∧
    ((default : Contract).compile oneBinary (writesOnly "[]") ()).1 = .error .noSuchField := by
  have plain : Json.Plain (.list []) := .list (by simp)
  have written : Json.write (.list []) = "[]" := rfl
  have read : Json.parse "[]" = .ok (.list []) := written ▸ Json.parse_write plain
  have decoded : decodeOutput "[]" = .ok (.list []) := written ▸ decodeOutput_write plain
  have answered (i : Invocation) : (writesOnly "[]" i ()).1.answer i = .ok (.list []) := decoded
  refine ⟨fun i s => ⟨.of_parse read, fun rest banner => by cases banner⟩, ?_⟩
  show Compilation.ofAttempt _ _ (runWithRetries (writesOnly "[]") _ _ _ ()).result = _
  rw [runWithRetries_of_answer (answered _)]
  rfl

end Contract

end SelectorCatalog
