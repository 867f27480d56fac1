import Mathlib.Data.List.Forall2
import Mathlib.Data.List.Nodup
import SelectorCatalog.Indexing.Run
import SelectorCatalog.Proofs.Functions.Extracted

/-!
# The outcome of a contract

A contract that is indexed to the end is either indexed, with functions and no error, or failed,
with an error and no functions (`Indexer.Gives.isSound`). An interrupt gives no outcome. Outcomes of
several contracts are those of the contracts one by one, whatever state the compiler was in
(`outcomes_give`).
-/

set_option autoImplicit false

namespace SelectorCatalog

/-- How the indexing of a contract ends: with functions and no error, or with an error and no
functions. -/
structure IndexOutcome.Ends {φ : Type} (o : IndexOutcome φ) : Prop where
  done : o.status = .indexed ∨ o.status = .failed
  kind : o.errorKind.isSome ↔ o.status = .failed
  message : o.errorMessage.isSome ↔ o.status = .failed
  empty : o.status = .failed → o.functions = []

theorem IndexOutcome.Ends.not_pending {φ : Type} {o : IndexOutcome φ} (h : o.Ends) :
    o.status.label ≠ ContractStatus.pending.label := by
  rcases h.done with status | status <;> rw [status] <;> decide

/-- The rows of an outcome are those of its contract; each has the selector of its signature, and no
selector occurs twice. -/
structure IndexOutcome.IsSound (o : IndexOutcome FunctionRow) : Prop extends o.Ends where
  owned : ∀ r ∈ o.functions, r.contractId = some o.contractId
  selected : ∀ r ∈ o.functions, ∃ s, r.signature = some s ∧ r.selector = some (Abi.selector s)
  distinct : (o.functions.map FunctionRow.selector).Nodup

namespace Contract

theorem failedOutcome_ends (c : Contract) (kind message : String) :
    (c.failedOutcome kind message).Ends := by
  constructor <;> simp [failedOutcome]

theorem indexedOutcome_ends (c : Contract) (functions : List FunctionRecord) :
    (c.indexedOutcome functions).Ends := by
  constructor <;> simp [indexedOutcome]

/-- What an outcome of a contract is. -/
structure HasOutcome (c : Contract) (o : IndexOutcome FunctionRecord) : Prop extends o.Ends where
  contractId : o.contractId = c.id
  records : FunctionRecords Abi.selector c.id o.functions

theorem hasOutcome_failed (c : Contract) (kind message : String) :
    c.HasOutcome (c.failedOutcome kind message) :=
  ⟨c.failedOutcome_ends kind message, rfl, .nil _ _⟩

theorem hasOutcome_fault {c : Contract} {f : Fault} {o : IndexOutcome FunctionRecord}
    (h : c.faultOutcome? f = some o) : c.HasOutcome o := by
  unfold faultOutcome? at h
  split at h
  · cases h
  · cases h
    exact c.hasOutcome_failed _ _

theorem hasOutcome_compiled {c : Contract} {compilation : Compilation}
    {o : IndexOutcome FunctionRecord} (h : c.compiledOutcome? compilation = some o) :
    c.HasOutcome o := by
  unfold compiledOutcome? at h
  split at h
  · cases h
    exact c.hasOutcome_failed _ _
  split at h
  · rename_i functions extracted
    cases h
    exact ⟨c.indexedOutcome_ends functions, rfl,
      Extraction.functionsBy_extracted _ _ _ _ functions extracted⟩
  · cases h
    exact c.hasOutcome_failed _ _
  · exact hasOutcome_fault h

/-- **Indexing a contract ends** with functions or with an error, unless the user interrupts. -/
theorem hasOutcome_index {σ : Type} {tools : Toolchain} {run : Runner σ} {c : Contract} {s : σ}
    {o : IndexOutcome FunctionRecord} (h : (c.index tools run s).1 = some o) : c.HasOutcome o := by
  unfold index at h
  split at h
  · exact hasOutcome_compiled h
  · exact hasOutcome_fault h

end Contract

namespace Indexer

variable {σ : Type}

/-- The outcome is one that the indexer can find for the contract, with rows of the database. -/
def Gives (x : Indexer σ) (cast : TextCast) (c : Contract) (o : IndexOutcome FunctionRow) : Prop :=
  ∃ s found, (c.index x.tools x.run s).1 = some found ∧ o = found.inRows cast

theorem Gives.contractId {x : Indexer σ} {cast : TextCast} {c : Contract}
    {o : IndexOutcome FunctionRow} (h : x.Gives cast c o) : o.contractId = c.id := by
  obtain ⟨s, found, indexed, rfl⟩ := h
  exact (Contract.hasOutcome_index indexed).contractId

theorem Gives.isSound {x : Indexer σ} {cast : TextCast} {c : Contract}
    {o : IndexOutcome FunctionRow} (h : x.Gives cast c o) : o.IsSound := by
  obtain ⟨s, found, indexed, rfl⟩ := h
  have outcome := Contract.hasOutcome_index indexed
  refine ⟨⟨outcome.done, outcome.kind, outcome.message, ?_⟩, ?_, ?_, ?_⟩
  · intro failed
    exact congrArg (List.map (FunctionRow.ofRecord cast)) (outcome.empty failed)
  · intro r hr
    obtain ⟨record, mem, rfl⟩ := List.mem_map.1 hr
    exact congrArg some ((outcome.records.owned record mem).trans outcome.contractId.symm)
  · intro r hr
    obtain ⟨record, mem, rfl⟩ := List.mem_map.1 hr
    exact ⟨record.signature, rfl, congrArg some (outcome.records.selected record mem)⟩
  · have same : (found.inRows cast).functions.map FunctionRow.selector =
        (found.functions.map FunctionRecord.selector).map some := by
      simp [IndexOutcome.inRows, IndexOutcome.map, FunctionRow.ofRecord, Function.comp_def]
    rw [same]
    exact List.Nodup.map (fun _ _ => Option.some.inj) outcome.records.distinct

/-- Outcomes of contracts are found one by one, each in a state that the compiler has come to. -/
theorem outcomes_give (x : Indexer σ) (cast : TextCast) : ∀ {cs : List Contract} {s : σ}
    {os : List (IndexOutcome FunctionRecord)}, (x.outcomes cs s).1 = some os →
      List.Forall₂ (x.Gives cast) cs (os.map (IndexOutcome.inRows cast))
  | [], s, os, h => by
    cases h
    exact .nil
  | c :: rest, s, os, h => by
    unfold outcomes at h
    split at h
    · cases h
    rename_i found t indexed
    split at h
    · rename_i others u more
      cases h
      refine .cons ⟨s, found, by rw [indexed], rfl⟩ (outcomes_give x cast (s := t) ?_)
      rw [more]
    · cases h

end Indexer

end SelectorCatalog
