import Mathlib.Data.Nat.Count
import SelectorCatalog.Compiler.Compilation
import SelectorCatalog.Proofs.Steps

/-!
# Which attempt is the last

Crashes and spent time budgets are counted apart. The attempts end at the first one that answers,
that stops for another reason, that is one crash more than may be retried, or one spent time budget
more (`Attempt.retrying_eq`). This is at the latest the attempt after as many as both budgets allow
together. A contract whose binary is not found is never attempted, and an answer is never asked for
again, whatever it tells (`Contract.compile_attempts`).
-/

set_option autoImplicit false

namespace SelectorCatalog

/-! ## Sequences of attempts -/

/-- Whether an attempt ended with a crash. -/
def crashed : Except (Stop CompileFailure) Value → Bool
  | .error (.failure f) => f.isCrash
  | _ => false

/-- Whether an attempt spent its time budget. -/
def timedOut : Except (Stop CompileFailure) Value → Bool
  | .error (.failure f) => f.isTimeout
  | _ => false

theorem timedOut_of_crashed {answer : Except (Stop CompileFailure) Value}
    (h : crashed answer = true) :
    timedOut answer = false := by
  match answer, h with
  | .error (.failure f), h =>
    simp only [crashed, CompileFailure.isCrash, decide_eq_true_eq] at h
    simp [timedOut, CompileFailure.isTimeout, h]

/-- Of a sequence of attempts, the one after `n` others is an end for these budgets: it is the first
that may end them, or one past it. -/
inductive EndsAt (answers : Nat → Except (Stop CompileFailure) Value)
    (crashes timeouts n : Nat) : Prop
  | answered {output : Value} (answer : answers n = .ok output)
  | stopped {reason : Stop CompileFailure} (answer : answers n = .error reason)
      (no_crash : crashed (answers n) = false) (in_time : timedOut (answers n) = false)
  | crashed (crash : crashed (answers n) = true)
      (spent : Nat.count (fun m => SelectorCatalog.crashed (answers m)) n = crashes)
  | timedOut (late : timedOut (answers n) = true)
      (spent : Nat.count (fun m => SelectorCatalog.timedOut (answers m)) n = timeouts)

/-- Of a sequence of attempts, the one after `n` others is the last. -/
structure IsLastAttempt (answers : Nat → Except (Stop CompileFailure) Value)
    (crashes timeouts n : Nat) : Prop where
  ends : EndsAt answers crashes timeouts n
  first : ∀ m < n, ¬EndsAt answers crashes timeouts m

section

variable {answers : Nat → Except (Stop CompileFailure) Value} {crashes timeouts n : Nat}

/-- **The first attempt takes one off the budget that it is counted in.** -/
theorem endsAt_succ :
    EndsAt answers (crashes + if crashed (answers 0) then 1 else 0)
        (timeouts + if timedOut (answers 0) then 1 else 0) (n + 1) ↔
      EndsAt (fun m => answers (m + 1)) crashes timeouts n := by
  constructor
  · rintro (answer | ⟨answer, no_crash, in_time⟩ | ⟨crash, spent⟩ | ⟨late, spent⟩)
    · exact .answered answer
    · exact .stopped answer no_crash in_time
    · rw [Nat.count_succ'] at spent
      exact .crashed crash (Nat.add_right_cancel spent)
    · rw [Nat.count_succ'] at spent
      exact .timedOut late (Nat.add_right_cancel spent)
  · rintro (answer | ⟨answer, no_crash, in_time⟩ | ⟨crash, spent⟩ | ⟨late, spent⟩)
    · exact .answered answer
    · exact .stopped answer no_crash in_time
    · refine .crashed crash ?_
      rw [Nat.count_succ', spent]
    · refine .timedOut late ?_
      rw [Nat.count_succ', spent]

theorem IsLastAttempt.zero (h : EndsAt answers crashes timeouts 0) :
    IsLastAttempt answers crashes timeouts 0 :=
  ⟨h, fun _ before => absurd before (Nat.not_lt_zero _)⟩

/-- What is last after a first attempt that may be retried is last with it. -/
theorem IsLastAttempt.succ (h : IsLastAttempt (fun m => answers (m + 1)) crashes timeouts n)
    (retried : crashed (answers 0) = true ∨ timedOut (answers 0) = true) :
    IsLastAttempt answers (crashes + if crashed (answers 0) then 1 else 0)
      (timeouts + if timedOut (answers 0) then 1 else 0) (n + 1) := by
  refine ⟨endsAt_succ.2 h.ends, fun m before => ?_⟩
  cases m with
  | succ m => exact fun ends => h.first m (Nat.lt_of_succ_lt_succ before) (endsAt_succ.1 ends)
  | zero =>
    rintro (answer | ⟨answer, no_crash, in_time⟩ | ⟨crash, spent⟩ | ⟨late, spent⟩)
    · rw [answer] at retried
      simp [crashed, timedOut] at retried
    · simp [no_crash, in_time] at retried
    · simp [crash] at spent
    · simp [late] at spent

theorem IsLastAttempt.unique {m : Nat} (h : IsLastAttempt answers crashes timeouts n)
    (g : IsLastAttempt answers crashes timeouts m) : n = m := by
  rcases Nat.lt_trichotomy n m with before | same | after
  · exact absurd h.ends (g.first n before)
  · exact same
  · exact absurd g.ends (h.first m after)

end

namespace Attempt

variable {σ : Type}

/-- The state after a number of attempts. -/
def stateAfter (attempt : Attempt σ) (s : σ) : Nat → σ
  | 0 => s
  | n + 1 => (attempt (stateAfter attempt s n)).2

/-- What the attempt after `n` others comes to. -/
def answerAt (attempt : Attempt σ) (s : σ) (n : Nat) : Except (Stop CompileFailure) Value :=
  (attempt (attempt.stateAfter s n)).1

theorem stateAfter_succ (attempt : Attempt σ) (s : σ) (n : Nat) :
    attempt.stateAfter s (n + 1) = attempt.stateAfter (attempt s).2 n := by
  induction n with
  | zero => rfl
  | succ n ih => rw [stateAfter, ih, stateAfter]

theorem answerAt_succ (attempt : Attempt σ) (s : σ) (n : Nat) :
    attempt.answerAt s (n + 1) = attempt.answerAt (attempt s).2 n := by
  rw [answerAt, answerAt, stateAfter_succ]

/-- **An attempt is an end, or takes one off a budget and others follow it.** -/
theorem retrying_cases (attempt : Attempt σ) (crashes timeouts : Nat) (s : σ) :
    (EndsAt (attempt.answerAt s) crashes timeouts 0 ∧
      retrying attempt crashes timeouts s = ⟨attempt.answerAt s 0, 1, (attempt s).2⟩) ∨
    (crashed (attempt.answerAt s 0) = true ∨ timedOut (attempt.answerAt s 0) = true) ∧
      ∃ crashesLeft timeoutsLeft,
        crashes = crashesLeft + (if crashed (attempt.answerAt s 0) then 1 else 0) ∧
        timeouts = timeoutsLeft + (if timedOut (attempt.answerAt s 0) then 1 else 0) ∧
        retrying attempt crashes timeouts s =
          let last := retrying attempt crashesLeft timeoutsLeft (attempt s).2
          { last with attempts := last.attempts + 1 } := by
  rcases made : attempt s with ⟨answer, t⟩
  have first : attempt.answerAt s 0 = answer := congrArg Prod.fst made
  rw [retrying, made, first]
  match answer with
  | .ok output => exact .inl ⟨.answered first, rfl⟩
  | .error (.fault f) => exact .inl ⟨.stopped first (by rw [first]; rfl) (by rw [first]; rfl), rfl⟩
  | .error (.failure f) =>
    dsimp only
    split
    · rename_i crash
      have in_time : timedOut (.error (.failure f)) = false := timedOut_of_crashed crash
      cases crashes with
      | zero => exact .inl ⟨.crashed (by rw [first]; exact crash) (Nat.count_zero _), rfl⟩
      | succ crashes =>
        refine .inr ⟨.inl crash, crashes, timeouts, ?_, ?_, rfl⟩
        · exact congrArg (crashes + ·) (if_pos crash).symm
        · rw [in_time]
          rfl
    · rename_i no_crash
      have no_crash : crashed (.error (.failure f)) = false := Bool.eq_false_iff.2 no_crash
      split
      · rename_i late
        cases timeouts with
        | zero => exact .inl ⟨.timedOut (by rw [first]; exact late) (Nat.count_zero _), rfl⟩
        | succ timeouts =>
          refine .inr ⟨.inr late, crashes, timeouts, ?_, ?_, rfl⟩
          · rw [no_crash]
            rfl
          · exact congrArg (timeouts + ·) (if_pos late).symm
      · rename_i in_time
        have in_time : timedOut (.error (.failure f)) = false := Bool.eq_false_iff.2 in_time
        exact .inl ⟨.stopped first (by rw [first, no_crash]) (by rw [first, in_time]), rfl⟩

/-- **Attempts end with the last one**, and no attempt is made after it. -/
theorem retrying_eq (attempt : Attempt σ) (crashes timeouts : Nat) (s : σ) :
    ∃ n ≤ crashes + timeouts, IsLastAttempt (attempt.answerAt s) crashes timeouts n ∧
      retrying attempt crashes timeouts s = ⟨attempt.answerAt s n, n + 1,
        attempt.stateAfter s (n + 1)⟩ := by
  -- An attempt that is retried leaves less of the two budgets together.
  induction both : crashes + timeouts using Nat.strongRecOn generalizing crashes timeouts s with
  | _ total ih =>
    rcases retrying_cases attempt crashes timeouts s with
      ⟨ends, eq⟩ | ⟨retried, crashes, timeouts, rfl, rfl, eq⟩
    · exact ⟨0, Nat.zero_le _, .zero ends, eq⟩
    · have less : crashes + timeouts < total := by
        rcases retried with crash | late
        · simp only [crash, if_true] at both
          omega
        · simp only [late, if_true] at both
          omega
      obtain ⟨n, bound, last, rest⟩ := ih _ less crashes timeouts (attempt s).2 rfl
      have later : (fun m => attempt.answerAt s (m + 1)) = attempt.answerAt (attempt s).2 :=
        funext fun m => answerAt_succ attempt s m
      rw [← later] at last
      refine ⟨n + 1, by omega, last.succ retried, ?_⟩
      rw [eq, rest, answerAt_succ, stateAfter_succ attempt s (n + 1)]

end Attempt

/-! ## Compiling a contract -/

theorem Compilation.attempts_withOutput (c : Compilation) (output : Value) :
    Yields (c.withOutput output) fun r => r.attempts = c.attempts := by
  refine .skip fun found => ?_
  split
  · exact .skip fun contracts => .skip fun trees => .pure rfl
  · exact .skip fun failure => .pure rfl

theorem Compilation.attempts_ofAttempt (c : Compilation) (attempts : Nat)
    (answer : Except (Stop CompileFailure) Value) :
    Yields (c.ofAttempt attempts answer) fun r => r.attempts = attempts :=
  match answer with
  | .ok output => attempts_withOutput { c with attempts } output
  | .error (.failure _) => .ok rfl
  | .error (.fault f) => .error f _

/-- A run that gives no answer, but a failure, crashed or spent its time budget. -/
theorem ProcessOutcome.retried_of_failure {o : ProcessOutcome} {i : Invocation} {f : CompileFailure}
    (h : o.answer i = .error (.failure f)) : f.isCrash = true ∨ f.isTimeout = true := by
  cases o with
  | interrupted => cases h
  | timedOut =>
    cases h
    exact .inr rfl
  | cannotExecute reason =>
    cases h
    exact .inl rfl
  | exited code output complaint =>
    simp only [answer, decodeOutput] at h
    repeat' split at h
    all_goals cases h
    all_goals exact .inl rfl

/-- Diagnostics are read from an answer. -/
theorem Compilation.answered_of_diagnostics {c r : Compilation} {attempts : Nat}
    {o : ProcessOutcome} {i : Invocation} {f : CompileFailure}
    (done : c.ofAttempt attempts (o.answer i) = .ok r) (failed : r.failure = some f)
    (diagnostics : f.kind = .compileDiagnostics) :
    ∃ output, o.answer i = .ok output := by
  cases answer : o.answer i with
  | ok output => exact ⟨output, rfl⟩
  | error reason =>
    cases reason with
    | fault g =>
      rw [answer] at done
      cases done
    | failure g =>
      rw [answer] at done
      cases done
      cases failed
      have retried := ProcessOutcome.retried_of_failure answer
      simp [CompileFailure.isCrash, CompileFailure.isTimeout, diagnostics] at retried

namespace Contract

variable {σ : Type}

/-- **Retry budgets are independent and exact.** Whatever a sequence of attempts comes to, the
attempts end with the first one that may end them. Compiling a contract makes no attempt if there is
no binary; else it reads the answer of the last attempt, and does not ask for another one if the
answer tells of errors. -/
theorem compile_attempts (attempt : Attempt σ) (crashes timeouts : Nat) (s₀ : σ) (tools : Toolchain)
    (run : Runner σ) (c : Contract) (s : σ) :
    (∃ n ≤ crashes + timeouts, IsLastAttempt (attempt.answerAt s₀) crashes timeouts n ∧
      retrying attempt crashes timeouts s₀ =
        ⟨attempt.answerAt s₀ n, n + 1, attempt.stateAfter s₀ (n + 1)⟩) ∧
    (∀ f, tools.binaryOf c.compilerVersion = .error (.failure f) →
      c.compile tools run s = (.ok { c.compilation with attempts := 0, failure := some f }, s)) ∧
    ∀ binary, tools.binaryOf c.compilerVersion = .ok binary →
      let runs := run.attempt ⟨binary, c.compilerInput, tools.budget⟩
      ∃ n ≤ tools.retries.crashes + tools.retries.timeouts,
        IsLastAttempt (runs.answerAt s) tools.retries.crashes tools.retries.timeouts n ∧
        c.compile tools run s =
          (c.compilation.ofAttempt (n + 1) (runs.answerAt s n), runs.stateAfter s (n + 1)) ∧
        ∀ r, (c.compile tools run s).1 = .ok r → r.attempts = n + 1 ∧
          ∀ f, r.failure = some f → f.kind = .compileDiagnostics →
            ∃ output, runs.answerAt s n = .ok output := by
  refine ⟨attempt.retrying_eq crashes timeouts s₀, fun f missing => ?_, ?_⟩
  · rw [compile, missing]
    rfl
  · intro binary found runs
    obtain ⟨n, bound, last, eq⟩ := runs.retrying_eq tools.retries.crashes tools.retries.timeouts s
    have compiled : c.compile tools run s =
        (c.compilation.ofAttempt (n + 1) (runs.answerAt s n), runs.stateAfter s (n + 1)) := by
      simp only [compile, found, runWithRetries]
      rw [eq]
    refine ⟨n, bound, last, compiled, fun r done => ?_⟩
    rw [compiled] at done
    exact ⟨c.compilation.attempts_ofAttempt _ _ r done,
      fun f failed diagnostics => Compilation.answered_of_diagnostics done failed diagnostics⟩

/-! ## A crash, a spent budget and another crash -/

/-- A runner that crashes and spends its time budget by turns. -/
def alternates : Runner Bool
  | _, false => (.exited 139 "" "", true)
  | _, true => (.timedOut, false)

/-- A toolchain that has one binary for all versions and retries one crash and one spent time
budget. -/
def retriesBoth : Toolchain := ⟨fun _ => .ok "solc", .zero false, { crashes := 1, timeouts := 1 }⟩

theorem isLastAttempt_alternates (i : Invocation) :
    IsLastAttempt ((alternates.attempt i).answerAt false) 1 1 2 := by
  refine ⟨.crashed rfl rfl, fun m before => ?_⟩
  match m, before with
  | 0, _ =>
    rintro (answer | ⟨-, no_crash, -⟩ | ⟨-, spent⟩ | ⟨late, -⟩)
    · cases answer
    · cases no_crash
    · cases spent
    · cases late
  | 1, _ =>
    rintro (answer | ⟨-, -, in_time⟩ | ⟨crash, -⟩ | ⟨-, spent⟩)
    · cases answer
    · cases in_time
    · cases crash
    · cases spent

/-- The second crash is the third run, and the last one that both budgets allow. -/
theorem compile_attempts_alternates :
    retriesBoth.binaryOf (default : Contract).compilerVersion = .ok "solc" ∧
    ∃ r, ((default : Contract).compile retriesBoth alternates false).1 = .ok r ∧
      r.attempts = 3 := by
  refine ⟨rfl, ?_⟩
  have runs := compile_attempts (alternates.attempt ⟨"", .null, .zero false⟩) 1 1 false retriesBoth
    alternates default false
  obtain ⟨n, -, last, compiled, attempts⟩ := runs.2.2 "solc" rfl
  obtain rfl := last.unique (isLastAttempt_alternates _)
  have done : ((default : Contract).compile retriesBoth alternates false).1 =
      .ok { (default : Contract).compilation
      with attempts := 3, failure := some (.exited 139 "") } := by
    rw [compiled]
    rfl
  exact ⟨_, done, (attempts _ done).1⟩

end Contract

end SelectorCatalog
