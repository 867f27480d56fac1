import Mathlib.Data.Rat.Cast.Order
import Mathlib.Algebra.Order.Field.Power
import SelectorCatalog.Proofs.Config.Misuse
import SelectorCatalog.Proofs.Corpus.Loading
import SelectorCatalog.Proofs.Indexing.Budget
import SelectorCatalog.Proofs.Indexing.Reference

/-!
# Settings that are accepted

Settings are accepted when they pass `RunSettings.checked`, and every layer ends with this check. So
whatever layers are put over the standard settings (`RunSettings.Layered`), both stages start with
what comes out of it. The time budget is another matter: it is refused for being at most zero, which
neither infinity nor what is not a number is (`Double.isPositive_iff`).
`RunSettings.Layered.usable_iff` says when the budget is a number, by the last value that the layers
give to it, and `RunSettings.load_without_budget` has settings that are accepted without one.
-/

set_option autoImplicit false

namespace SelectorCatalog

/-! ## Numbers -/

namespace Double

/-- The number that a double stands for; infinities and what is not a number stand for none. -/
def value? : Double → Option ℚ
  | finite negative m e => some ((if negative then -1 else 1) * m * 2 ^ e)
  | _ => none

/-- A double stands for a number above zero. -/
def IsPositive (d : Double) : Prop := ∃ q : ℚ, d.value? = some q ∧ 0 < q

theorem isPositive_finite {negative : Bool} {m : Nat} {e : Int} :
    (finite negative m e).IsPositive ↔ negative = false ∧ m ≠ 0 := by
  have power : (0 : ℚ) < 2 ^ e := zpow_pos (by norm_num) e
  have magnitude : (0 : ℚ) < m * 2 ^ e ↔ m ≠ 0 := by
    rw [mul_pos_iff_of_pos_right power, Nat.cast_pos, Nat.pos_iff_ne_zero]
  unfold IsPositive
  simp only [value?, Option.some.injEq, exists_eq_left']
  cases negative with
  | false => simpa using magnitude
  | true =>
    have below : 0 ≤ (m : ℚ) * 2 ^ e := mul_nonneg (Nat.cast_nonneg m) power.le
    simpa using below

/-- **What is not at most zero is a number above zero** unless it is infinite or not a number. -/
theorem isPositive_iff {d : Double} (above : d.nonPositive = false) :
    d.IsPositive ↔ d ≠ infinite false ∧ d ≠ nan := by
  cases d with
  | nan => simp [IsPositive, value?]
  | infinite negative =>
    cases negative with
    | false => simp [IsPositive, value?]
    | true => cases above
  | finite negative m e =>
    rw [isPositive_finite]
    simpa [nonPositive] using above

end Double

/-- A value gives a setting a double without a bound above, or what is not a number. -/
def Datum.IsBoundless (d : Datum) :
    Prop := d.toDouble = .ok (.infinite false) ∨ d.toDouble = .ok .nan

namespace RunSettings

/-! ## What the check lets through -/

/-- The whole numbers of settings with which both stages start. -/
structure HasCounts (s : RunSettings) : Prop where
  loadChunk : 1 ≤ s.loadChunk
  indexChunk : 1 ≤ s.indexChunk
  workers : 1 ≤ s.workers
  crashRetries : 0 ≤ s.crashRetries
  timeoutRetries : 0 ≤ s.timeoutRetries

theorem checked_eq_ok_iff {s t : RunSettings} :
    s.checked = .ok t ↔ t = s ∧ s.HasCounts ∧ s.budget.nonPositive = false := by
  unfold checked
  constructor
  · intro passed
    split_ifs at passed with chunks workers budget retries
    cases passed
    simp only [Bool.or_eq_true, decide_eq_true_eq, not_or, not_le, not_lt] at chunks workers retries
    exact ⟨rfl, ⟨chunks.1, chunks.2, workers, retries.1, retries.2⟩, by simpa using budget⟩
  · rintro ⟨rfl, ⟨loadChunk, indexChunk, workers, crashRetries, timeoutRetries⟩, budget⟩
    rw [if_neg (by simp; omega), if_neg (by omega), if_neg (by simp [budget]),
      if_neg (by simp; omega)]

theorem checked_standard {processors : Int} (some_there : 1 ≤ processors) :
    (standard processors).checked = .ok (standard processors) := by
  have budget : (Double.ofRatio false 120 1).nonPositive = false := by decide +kernel
  have chunks : (1 : Int) ≤ 500 ∧ (1 : Int) ≤ 100 := by decide
  have retries : (0 : Int) ≤ 1 ∧ (0 : Int) ≤ 0 := by decide
  exact checked_eq_ok_iff.2 ⟨rfl, ⟨chunks.1, chunks.2, some_there, retries.1, retries.2⟩, budget⟩

/-! ## Stages -/

/-- Both stages start with the settings: a corpus is loaded to its end, as far as it is sound or
errors are ignored, and indexing is refused for nothing but modes that exclude each other. -/
structure StartsStages (s : RunSettings) : Prop where
  load : ∀ (db : Database) (records : List RawRecord) (ignoreErrors : Bool),
    ignoreErrors = true ∨ (∀ r ∈ records, r.isSound) →
      db.load ⟨s.loadChunk, ignoreErrors⟩ ⟨records, none⟩ =
        (.ok (db.loadSummary records), db.store (RawRecord.contractsOf records))
  index : ∀ (reindex retryFailed : Bool) (limit : Option Int),
    ¬(reindex = true ∧ retryFailed = true) →
      Indexer.refusal? ⟨s.indexChunk, s.workers, reindex, retryFailed, limit⟩ = none

theorem HasCounts.startsStages {s : RunSettings} (counts : s.HasCounts) : s.StartsStages where
  load db _ ignoreErrors fine := by
    have chunks : 1 ≤ (LoadOptions.mk s.loadChunk ignoreErrors).chunkSize := counts.loadChunk
    exact Database.load_complete chunks fine db
  index _ _ _ mode := IndexOptions.IsValid.refusal? ⟨counts.indexChunk, counts.workers, mode⟩

/-- The compiler is only run with budgets that are numbers above zero: what it would do with others
makes no difference. -/
def RunsInTime (s : RunSettings) : Prop :=
  ∀ {σ : Type} (w : Workspace σ) (other : Runner σ),
    (∀ i, i.budget.IsPositive → w.run i = other i) →
    ∀ options ignoreErrors db, CommandLine.runIndex w s options ignoreErrors db =
      CommandLine.runIndex { w with run := other } s options ignoreErrors db

theorem runsInTime_of_isPositive {s : RunSettings} (positive : s.budget.IsPositive) :
    s.RunsInTime := by
  intro σ w other same options ignoreErrors db
  let x := w.indexer (w.binaryDirectory s.binaryDirectory) s.budget ⟨s.crashRetries.toNat,
    s.timeoutRetries.toNat⟩
  have within : x.run.SameWithin x.tools.budget other := fun i budget => same i (budget ▸ positive)
  have run : x.index options ⟨db, w.compiler⟩ = (x.withRunner other).index options ⟨db,
      w.compiler⟩ :=
    Indexer.index_congr within options _
  unfold CommandLine.runIndex
  dsimp only
  rw [show (w.indexer _ _ _).index options ⟨db, w.compiler⟩ = _ from run]
  rfl

/-! ## Layers over the standard settings -/

/-- Settings that come out of layers over the standard ones of a machine: the layers of a settings
file and of the environment, which are loaded together, and after them any others. -/
inductive Layered (processors : Int) : List (List (String × Datum)) → RunSettings → Prop
  | standard (some_there : 1 ≤ processors) : Layered processors [] (.standard processors)
  | loaded {t : Tree} {named : Option String} {environment : List (String × String)}
      {readContent : List UInt8 →
        Except Fault Datum} {file : Option (List (String × Datum))} {s : RunSettings}
      (read : fileLayer readContent t named = .ok file)
      (settled : RunSettings.load (.standard processors) t named environment readContent = .ok s) :
      Layered processors (file.toList ++ [environmentLayer environment]) s
  | overridden {layers : List (List (String × Datum))} {layer : List (String × Datum)}
      {s t : RunSettings}
      (lower : Layered processors layers s) (settled : s.override layer = .ok t) :
      Layered processors (layers ++ [layer]) t

namespace Layered

variable {processors : Int} {layers : List (List (String × Datum))} {s : RunSettings}

/-- Loading puts its layers over the standard settings one after the other, as all other layers
are. -/
theorem foldlM_eq (layered : Layered processors layers s) :
    layers.foldlM override (.standard processors) = .ok s := by
  induction layered with
  | standard => rfl
  | loaded read settled => rwa [load_eq, read, ok_bind] at settled
  | overridden _ settled ih =>
    rw [List.foldlM_append, ih, ok_bind, List.foldlM_cons, settled]
    rfl

theorem checked_eq (layered : Layered processors layers s) : s.checked = .ok s := by
  cases layered with
  | standard some_there => exact checked_standard some_there
  | loaded read settled =>
    have folded := (loaded read settled).foldlM_eq
    exact checked_override_all (List.append_ne_nil_of_right_ne_nil _ (List.cons_ne_nil _ _)) folded
  | overridden _ settled => exact (override_eq_ok settled).2

/-- The budget is what the last value that the layers give to it comes to, or the standard one. -/
theorem budget_eq (layered : Layered processors layers s) :
    (givenIn layers.flatten .budget).elim (.ok (.ofRatio false 120 1)) Datum.toDouble =
      .ok s.budget := by
  have after : (RunSettings.standard processors).valueAfter
      (givenIn layers.flatten .budget) .budget =
      .ok (.double s.budget) := isAfter_override_all layered.foldlM_eq .budget
  cases given : givenIn layers.flatten .budget with
  | none =>
    rw [given] at after
    exact congrArg Except.ok (Datum.double.inj (Except.ok.inj after))
  | some d =>
    rw [given] at after
    obtain ⟨b, read, same⟩ := map_eq_ok.1 after
    cases same
    exact read

/-- **Settings that come out of layers are accepted by both stages**, and their time budget is a
number above zero exactly if the last value that the layers give to it, where they give one, is
neither infinite nor what is not a number. With such a budget the compiler is never run with another
one. -/
theorem usable_iff (layered : Layered processors layers s) :
    s.HasCounts ∧ s.StartsStages ∧
      (s.budget.IsPositive ↔ ∀ d, givenIn layers.flatten .budget = some d → ¬d.IsBoundless) ∧
      (s.budget.IsPositive → s.RunsInTime) := by
  obtain ⟨-, counts, above⟩ := checked_eq_ok_iff.1 layered.checked_eq
  refine ⟨counts, counts.startsStages, ?_, runsInTime_of_isPositive⟩
  rw [Double.isPositive_iff above]
  have comes := layered.budget_eq
  cases given : givenIn layers.flatten .budget with
  | none =>
    rw [given] at comes
    have bounded : s.budget ≠ .infinite false ∧ s.budget ≠ .nan := by
      rw [← Except.ok.inj comes]
      decide +kernel
    exact iff_of_true bounded fun d there => by cases there
  | some d =>
    rw [given, Option.elim_some] at comes
    simp [Datum.IsBoundless, comes]

/-- A variable that gives no number, over a settings file. -/
def loadedWithoutBudget : Except Fault RunSettings :=
  load (.standard 8) (CommandLine.workspaceWith "workers: 3\n").files none
    [("INDEXER_COMPILE_TIMEOUT", "nan")]

/-- A budget is given over what is no number. -/
theorem usable_iff_overridden :
    ∃ layers s, Layered 8 layers s ∧ s.HasCounts ∧ s.StartsStages ∧
      s.budget.IsPositive ∧ s.RunsInTime := by
  have loading : loadedWithoutBudget = .ok { workers := 3, budget := .nan } := by decide +kernel
  have changed : (({ workers := 3, budget := .nan } : RunSettings).override
      [("compile_timeout", .text "2.5")]) =
      .ok { workers := 3, budget := .ofRatio false 5 2 } := by decide +kernel
  obtain ⟨file, read, -⟩ := bind_eq_ok.1 ((load_eq ..).symm.trans loading)
  have layered := (loaded read loading).overridden changed
  obtain ⟨counts, stages, positive_iff, inTime⟩ := layered.usable_iff
  have positive := positive_iff.2 fun d given => by
    rw [List.flatten_append, givenIn_append] at given
    cases given
    unfold Datum.IsBoundless
    decide +kernel
  exact ⟨_, _, layered, counts, stages, positive, inTime positive⟩

end Layered

/-- **What is no number passes as a time budget.** -/
theorem load_without_budget :
    ∃ s, load (.standard 8) {} none [("INDEXER_COMPILE_TIMEOUT", "nan")] = .ok s ∧
      ¬s.budget.IsPositive := by
  refine ⟨{ workers := 8, budget := .nan }, by decide +kernel, ?_⟩
  simp [Double.IsPositive, Double.value?]

end RunSettings

end SelectorCatalog
