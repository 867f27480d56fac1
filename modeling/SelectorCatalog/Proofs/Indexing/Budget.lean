import SelectorCatalog.Indexing.Run

/-!
# The compiler has the time budget of its toolchain

Whatever is compiled, every run of the compiler is given the budget of the toolchain. So what the
compiler would do with another budget makes no difference: not to a contract
(`Contract.index_congr`), and not to a run of indexing (`Indexer.index_congr`).
-/

set_option autoImplicit false

namespace SelectorCatalog

variable {σ : Type}

/-- Two ways to run the compiler do the same with a time budget. -/
def Runner.SameWithin (budget : Double) (run other : Runner σ) :
    Prop := ∀ i, i.budget = budget → run i = other i

namespace Contract

variable {tools : Toolchain} {run other : Runner σ}

theorem compile_congr (same : run.SameWithin tools.budget other) (c : Contract) (s : σ) :
    c.compile tools run s = c.compile tools other s := by
  unfold compile
  cases tools.binaryOf c.compilerVersion with
  | error stop => rfl
  | ok binary =>
    have attempts : run.attempt ⟨binary, c.compilerInput, tools.budget⟩ =
        other.attempt ⟨binary, c.compilerInput, tools.budget⟩ := by
      unfold Runner.attempt
      rw [same _ rfl]
    simp only [runWithRetries, attempts]

theorem index_congr (same : run.SameWithin tools.budget other) (c : Contract) (s : σ) :
    c.index tools run s = c.index tools other s := by
  unfold index
  rw [compile_congr same]

end Contract

namespace Indexer

/-- The indexer with another way to run the compiler. -/
def withRunner (x : Indexer σ) (other : Runner σ) : Indexer σ := { x with run := other }

variable {x : Indexer σ} {other : Runner σ} (same : x.run.SameWithin x.tools.budget other)

include same

theorem outcomes_congr :
    ∀ (cs : List Contract) (s : σ), x.outcomes cs s = (x.withRunner other).outcomes cs s
  | [], _ => rfl
  | c :: rest, s => by
    have first : c.index x.tools x.run s =
        c.index (x.withRunner other).tools (x.withRunner other).run s :=
      c.index_congr same s
    unfold outcomes
    rw [← first]
    cases c.index x.tools x.run s with
    | mk outcome t =>
      cases outcome with
      | none => rfl
      | some o => simp only [outcomes_congr rest t]

theorem chunk_congr (number : Nat) (cs : List Contract) (s : IndexState σ) :
    x.chunk number cs s = (x.withRunner other).chunk number cs s := by
  unfold chunk
  rw [outcomes_congr same]
  rfl

theorem chunks_congr (size remaining number : Nat) (after : String) (summary : IndexSummary)
    (s : IndexState σ) :
    x.chunks size remaining number after summary s =
      (x.withRunner other).chunks size remaining number after summary s := by
  induction remaining using Nat.strongRecOn generalizing number after summary s with
  | _ remaining ih =>
    rw [chunks, chunks]
    split
    · rfl
    rename_i some_left
    split
    · rfl
    · rfl
    rename_i c cs _
    rw [← chunk_congr same]
    cases x.chunk number (c :: cs) s with
    | mk result t =>
      cases result with
      | error stop => rfl
      | ok os => exact ih _ (by omega) _ _ _ _

/-- **A run of indexing only asks what the compiler does with the budget of its toolchain.** -/
theorem index_congr (options : IndexOptions) (s : IndexState σ) :
    x.index options s = (x.withRunner other).index options s := by
  unfold index
  cases refusal? options with
  | some f => rfl
  | none => exact chunks_congr same _ _ _ _ _ _

end Indexer

end SelectorCatalog
