import SelectorCatalog.Proofs.Database.Stored

/-!
# The pending contracts as a queue

`Database.pending` lists the pending rows in ascending order of ids, and `Database.queue` the
contracts that they are read back as. Fetching after an id takes from the front of the queue as long
as everything before that id is done (`fetchPending_eq`), and recording outcomes of the front leaves
the rest (`pending_foldl_record`).
-/

set_option autoImplicit false

namespace SelectorCatalog

/-- The contract that a row is read back as. -/
def ContractRow.asContract (r : ContractRow) : Contract := r.contract.toOption.getD default

namespace Database

/-- The pending rows in ascending order of ids. -/
def pending (db : Database) :
    List ContractRow := KeyOrder.sort ContractRow.id (db.withStatus .pending)

/-- The contracts of the pending rows. -/
def queue (db : Database) : List Contract := db.pending.map ContractRow.asContract

/-! ## The order of the queue -/

theorem mem_pending {db : Database} {r : ContractRow} :
    r ∈ db.pending ↔ r ∈ db.contracts ∧ r.status = ContractStatus.pending.label := by
  rw [pending, (KeyOrder.sort_perm _ _).mem_iff, withStatus, List.mem_filter, beq_iff_eq]

theorem pending_ascending {db : Database} (h : db.IsStored) :
    db.pending.Pairwise fun a b => a.id < b.id :=
  KeyOrder.pairwise_sort_lt (h.distinct.sublist (List.filter_sublist.map _))

theorem asContract_of_mem {db : Database} (h : db.IsStored) {r : ContractRow}
    (hr : r ∈ db.contracts) :
    r.contract = .ok r.asContract ∧ r.asContract.id = r.id := by
  obtain ⟨c, read⟩ := h.readable r hr
  have same : r.asContract = c := by rw [ContractRow.asContract, read]; rfl
  exact ⟨same ▸ read, same ▸ ContractRow.contract_id (h.named r hr) read⟩

theorem queue_ids {db : Database} (h : db.IsStored) :
    db.queue.map Contract.id = db.pending.map ContractRow.id := by
  rw [queue, List.map_map]
  exact List.map_congr_left fun r hr => (asContract_of_mem h (mem_pending.1 hr).1).2

theorem queue_ascending {db : Database} (h : db.IsStored) :
    db.queue.Pairwise fun a b => a.id < b.id := by
  have ids : (db.queue.map Contract.id).Pairwise (· < ·) :=
    queue_ids h ▸ List.pairwise_map.2 (pending_ascending h)
  exact List.pairwise_map.1 ids

/-! ## Fetching -/

theorem pendingAfter_eq {db : Database} (h : db.IsStored) (after : String) :
    db.pendingAfter after = db.pending.filter fun r => decide (after < r.id) :=
  KeyOrder.sort_eq_of_perm ContractRow.id ((KeyOrder.sort_perm _ _).symm.filter _)
    ((pending_ascending h).filter _)

/-- **Fetching takes from the front of the queue** if all that is pending comes after the id. -/
theorem fetchPending_eq {db : Database} (h : db.IsStored) {after : String}
    (done : ∀ c ∈ db.queue, after < c.id) (limit : Nat) :
    db.fetchPending after limit = .ok (db.queue.take limit) := by
  have all : db.pendingAfter after = db.pending := by
    rw [pendingAfter_eq h, List.filter_eq_self]
    intro r hr
    have later := done r.asContract (List.mem_map_of_mem hr)
    rw [(asContract_of_mem h (mem_pending.1 hr).1).2] at later
    exact decide_eq_true later
  have read : (db.pending.take limit).mapM ContractRow.contract =
      .ok ((db.pending.take limit).map ContractRow.asContract) :=
    mapM_ok fun r hr =>
      (asContract_of_mem h (mem_pending.1 (List.mem_of_mem_take hr)).1).1
  unfold fetchPending
  rw [if_neg (by omega), all, Int.toNat_natCast, read, queue, List.map_take]
  rfl

/-! ## Recording -/

/-- An outcome takes its contract out of the queue and leaves the others in it. -/
theorem pending_record {db : Database} (h : db.IsStored) {o : IndexOutcome FunctionRow}
    (ends : o.Ends) :
    (db.record o).pending = db.pending.filter fun r => r.id != o.contractId := by
  have rows : (db.record o).withStatus .pending =
      (db.withStatus .pending).filter fun r => r.id != o.contractId := by
    have own : ∀ r : ContractRow, r.id = o.contractId →
        ((r.setOutcome o).status == ContractStatus.pending.label) = false := by
      intro r same
      simp [ContractRow.setOutcome, same, ends.not_pending]
    rw [withStatus, withStatus, contracts_record, ContractRow.filter_setOutcome own,
      List.filter_filter]
  rw [pending, rows]
  exact KeyOrder.sort_eq_of_perm ContractRow.id ((KeyOrder.sort_perm _ _).symm.filter _)
    ((pending_ascending h).filter _)

theorem pending_foldl_record {db : Database} (h : db.IsStored)
    {outcomes : List (IndexOutcome FunctionRow)} (ends : ∀ o ∈ outcomes, o.Ends) (count : Nat)
    (ids : outcomes.map IndexOutcome.contractId = (db.pending.take count).map ContractRow.id) :
    (outcomes.foldl record db).pending = db.pending.drop count := by
  induction outcomes generalizing db count with
  | nil =>
    have none_taken : db.pending.take count = [] := List.map_eq_nil_iff.1 ids.symm
    have split := List.take_append_drop count db.pending
    rw [none_taken, List.nil_append] at split
    exact split.symm
  | cons o rest ih =>
    cases queue : db.pending with
    | nil => simp [queue] at ids
    | cons r others =>
      cases count with
      | zero => simp at ids
      | succ count =>
        rw [queue, List.take_succ_cons, List.map_cons, List.map_cons, List.cons.injEq] at ids
        have ascending := queue ▸ pending_ascending h
        have front : (db.record o).pending = others := by
          rw [pending_record h (ends o List.mem_cons_self), queue, ids.1,
            List.filter_cons_of_neg (by simp), List.filter_eq_self]
          intro s hs
          simpa using (String.ne_of_lt (List.rel_of_pairwise_cons ascending hs)).symm
        rw [List.foldl_cons, List.drop_succ_cons, ← front]
        exact ih (h.record o) (fun p hp => ends p (List.mem_cons_of_mem _ hp)) count (front ▸ ids.2)

/-- **Recording the outcomes of the front of the queue leaves the rest of it.** -/
theorem queue_foldl_record {db : Database} (h : db.IsStored)
    {outcomes : List (IndexOutcome FunctionRow)} (ends : ∀ o ∈ outcomes, o.Ends) (count : Nat)
    (ids : outcomes.map IndexOutcome.contractId = (db.queue.take count).map Contract.id) :
    (outcomes.foldl record db).queue = db.queue.drop count := by
  have rows : outcomes.map IndexOutcome.contractId =
      (db.pending.take count).map ContractRow.id := by
    rw [ids, List.map_take, queue_ids h, List.map_take]
  rw [queue, pending_foldl_record h ends count rows, queue, List.map_drop]

end Database

end SelectorCatalog
