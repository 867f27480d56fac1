import Mathlib.Data.List.Perm.Basic
import SelectorCatalog.Proofs.Database.Pending

/-!
# Indexing goes through the queue

The loop fetches chunk after chunk behind the last id that is done. `Indexer.overQueue` goes through
a list of contracts that is given in advance and cuts it into chunks; `chunks_eq_overQueue` says
that the loop does just that with the front of the queue. What a chunk comes to does not depend on
the order in which its contracts are finished (`chunk_cases`).
-/

set_option autoImplicit false

namespace SelectorCatalog

namespace Indexer

variable {σ : Type}

/-! ## One chunk -/

theorem ids_of_gives {x : Indexer σ} {cast : TextCast} {cs : List Contract}
    {os : List (IndexOutcome FunctionRow)} (h : List.Forall₂ (x.Gives cast) cs os) :
    os.map IndexOutcome.contractId = cs.map Contract.id := by
  induction h with
  | nil => rfl
  | cons first _ ih => rw [List.map_cons, List.map_cons, first.contractId, ih]

theorem isSound_of_gives {x : Indexer σ} {cast : TextCast} {cs : List Contract}
    {os : List (IndexOutcome FunctionRow)} (h : List.Forall₂ (x.Gives cast) cs os) :
    ∀ o ∈ os, o.IsSound := by
  induction h with
  | nil => exact fun o ho => absurd ho List.not_mem_nil
  | cons first _ ih => exact List.forall_mem_cons.2 ⟨first.isSound, ih⟩

/-- Sorted outcomes are those of the contracts in ascending order, in whatever order they were
found. -/
theorem sortOutcomes_of_perm {x : Indexer σ} {cast : TextCast} {cs finished : List Contract}
    {os : List (IndexOutcome FunctionRow)} (ascending : cs.Pairwise fun a b => a.id < b.id)
    (perm : finished.Perm cs) (gives : List.Forall₂ (x.Gives cast) finished os) :
    List.Forall₂ (x.Gives cast) cs (sortOutcomes os) := by
  obtain ⟨sorted, found, same⟩ := List.perm_comp_forall₂ perm.symm gives
  have order : sorted.Pairwise fun a b => a.contractId < b.contractId := by
    rw [← List.pairwise_map, ids_of_gives found]
    exact List.pairwise_map.2 ascending
  have unique : sortOutcomes os = sorted :=
    KeyOrder.sort_eq_of_perm IndexOutcome.contractId same.symm order
  exact unique ▸ found

/-- What stops a chunk: the user, or the database. -/
def IsDisturbance (stop : Stop StorageFailure) : Prop :=
  stop = .fault .interrupted ∨ stop = .failure .breakdown

/-- **A chunk goes through whole or leaves the tables alone.** -/
theorem chunk_cases (x : Indexer σ) (number : Nat) {cs : List Contract}
    (ascending : cs.Pairwise fun a b => a.id < b.id) (st : IndexState σ) :
    (∃ stop compiler, IsDisturbance stop ∧ x.chunk number cs st =
      (.error stop, ⟨st.db, compiler⟩)) ∨
      ∃ os compiler, List.Forall₂ (x.Gives st.db.cast) cs os ∧
        x.chunk number cs st = (.ok os, ⟨os.foldl Database.record st.db, compiler⟩) := by
  unfold chunk
  split
  · exact .inl ⟨_, _, .inl rfl, rfl⟩
  · rename_i os compiler found
    have gives := sortOutcomes_of_perm ascending (x.schedule_perm cs)
      (x.outcomes_give st.db.cast (congrArg Prod.fst found))
    have distinct : ((sortOutcomes (os.map (IndexOutcome.inRows st.db.cast))).map
        IndexOutcome.contractId).Nodup := by
      rw [ids_of_gives gives]
      exact List.pairwise_map.2 (ascending.imp String.ne_of_lt)
    rcases Database.commit_cases st.db (isSound_of_gives gives) distinct (x.breakdown number) with
      committed | broken
    · right
      exact ⟨_, compiler, gives, by simp only [committed]⟩
    · left
      exact ⟨_, compiler, .inr rfl, by simp only [broken]⟩

theorem chunk_error {x : Indexer σ} {number : Nat} {cs : List Contract} {st st' : IndexState σ}
    {stop : Stop StorageFailure} (ascending : cs.Pairwise fun a b => a.id < b.id)
    (h : x.chunk number cs st = (.error stop, st')) : IsDisturbance stop ∧ st'.db = st.db := by
  rcases x.chunk_cases number ascending st with ⟨_, _, disturbance, stopped⟩ | ⟨_, _, _, went⟩
  · rw [stopped] at h
    cases h
    exact ⟨disturbance, rfl⟩
  · rw [went] at h
    cases h

theorem chunk_ok {x : Indexer σ} {number : Nat} {cs : List Contract} {st st' : IndexState σ}
    {os : List (IndexOutcome FunctionRow)} (ascending : cs.Pairwise fun a b => a.id < b.id)
    (h : x.chunk number cs st = (.ok os, st')) :
    List.Forall₂ (x.Gives st.db.cast) cs os ∧ st'.db = os.foldl Database.record st.db := by
  rcases x.chunk_cases number ascending st with ⟨_, _, _, stopped⟩ | ⟨_, _, gives, went⟩
  · rw [stopped] at h
    cases h
  · rw [went] at h
    cases h
    exact ⟨gives, rfl⟩

/-! ## Chunk after chunk -/

/-- Indexes the contracts of a list in chunks of `size`, or of one if `size` is zero. -/
def overQueue (x : Indexer σ) (size number : Nat) : List Contract → IndexSummary → IndexState σ →
    Except (Stop StorageFailure) IndexSummary × IndexState σ
  | [], summary, s => (.ok summary, s)
  | c :: rest, summary, s => match x.chunk number (c :: rest.take (size - 1)) s with
    | (.error stop, s) => (.error stop, s)
    | (.ok os, s) =>
      x.overQueue size (number + 1) (rest.drop (size - 1)) (os.foldl IndexSummary.add summary) s
  termination_by cs => cs.length
  decreasing_by
    rw [List.length_drop, List.length_cons]
    omega

/-- A chunk is cut off the front of what may still be indexed in the same way as off the whole
queue. -/
theorem drop_take_window {α : Type} (rest : List α) {size remaining count : Nat}
    (cut : min size remaining = count + 1) :
    (rest.drop count).take (remaining - ((rest.take count).length + 1)) =
      (rest.take (remaining - 1)).drop (size - 1) := by
  rw [List.drop_take, List.length_take]
  rcases Nat.lt_or_ge rest.length count with short | full
  · rw [List.drop_eq_nil_of_le (by omega), List.drop_eq_nil_of_le (by omega), List.take_nil,
      List.take_nil]
  · rw [Nat.min_eq_left full]
    rcases Nat.lt_or_ge remaining size with less | fits
    · rw [show remaining - (count + 1) = 0 by omega, show remaining - 1 - (size - 1) = 0 by omega,
        List.take_zero, List.take_zero]
    · rw [show size - 1 = count by omega]
      congr 1
      omega

theorem lastId_mem (c : Contract) (rest : List Contract) :
    (c :: rest).getLast?.getD c ∈ c :: rest := by
  rw [List.getLast?_eq_some_getLast (List.cons_ne_nil c rest), Option.getD_some]
  exact List.getLast_mem _

/-- **The loop goes through the front of the queue**: the cursor skips nothing and takes nothing
twice, because all that is pending comes after it. -/
theorem chunks_eq_overQueue (x : Indexer σ) {size : Nat} (positive : 0 < size)
    (remaining number : Nat) {after : String} (summary : IndexSummary) (st : IndexState σ)
    (stored : st.db.IsStored) (done : ∀ c ∈ st.db.queue, after < c.id) :
    x.chunks size remaining number after summary st =
      x.overQueue size number (st.db.queue.take remaining) summary st := by
  induction remaining using Nat.strongRecOn generalizing number after summary st with
  | _ remaining ih =>
    rw [chunks]
    split
    · rename_i none_left
      rw [none_left, List.take_zero, overQueue]
    rename_i some_left
    obtain ⟨count, cut⟩ : ∃ count, min size remaining = count + 1 :=
      ⟨min size remaining - 1, by omega⟩
    have ascending := Database.queue_ascending stored
    rw [Database.fetchPending_eq stored done, cut]
    cases queue : st.db.queue with
    | nil => rw [List.take_nil, List.take_nil, overQueue]
    | cons c rest =>
      rw [queue] at ascending
      have window : (c :: rest.take count).Pairwise fun a b => a.id < b.id :=
        ascending.sublist (List.take_sublist (count + 1) (c :: rest))
      have piece : (rest.take (remaining - 1)).take (size - 1) = rest.take count := by
        rw [List.take_take]
        congr 1
        omega
      rw [List.take_succ_cons, List.take_cons (by omega), overQueue, piece]
      rcases x.chunk_cases number window st with
        ⟨stop, compiler, -, stopped⟩ | ⟨os, compiler, gives, went⟩
      · simp only [stopped]
      · have left : (os.foldl Database.record st.db).queue = rest.drop count := by
          have front :=
            Database.queue_foldl_record stored (fun o ho => (isSound_of_gives gives o ho).toEnds)
            (count + 1) (by rw [queue, List.take_succ_cons, ids_of_gives gives])
          rw [front, queue, List.drop_succ_cons]
        have later : ∀ d ∈ rest.drop count, ((c :: rest.take count).getLast?.getD c).id < d.id := by
          have parts : ((c :: rest.take count) ++ rest.drop count).Pairwise fun a b => a.id <
              b.id := by
            rwa [List.cons_append, List.take_append_drop]
          exact (List.pairwise_append.1 parts).2.2 _ (lastId_mem c _)
        have next := ih (remaining - ((rest.take count).length + 1)) (by omega) (number + 1)
          (os.foldl IndexSummary.add summary) ⟨os.foldl Database.record st.db, compiler⟩
          (stored.foldl_record os) (left ▸ later)
        simp only [went, next, left, drop_take_window rest cut]

theorem chunk_ascending {c : Contract} {rest : List Contract} (count : Nat)
    (ascending : (c :: rest).Pairwise fun a b => a.id < b.id) :
    (c :: rest.take count).Pairwise fun a b => a.id < b.id :=
  ascending.sublist (List.take_sublist (count + 1) (c :: rest))

theorem rest_ascending {c : Contract} {rest : List Contract} (count : Nat)
    (ascending : (c :: rest).Pairwise fun a b => a.id < b.id) :
    (rest.drop count).Pairwise fun a b => a.id < b.id :=
  ascending.sublist (List.drop_sublist (count + 1) (c :: rest))

theorem foldl_record_preserves {x : Indexer σ} {cast : TextCast} {P : Database → Prop}
    {cs : List Contract} {os : List (IndexOutcome FunctionRow)}
    (gives : List.Forall₂ (x.Gives cast) cs os)
    (one : ∀ db o c, c ∈ cs → x.Gives cast c o → P db → P (db.record o)) {db : Database}
    (h : P db) :
    P (os.foldl Database.record db) := by
  induction gives generalizing db with
  | nil => exact h
  | cons first _ ih =>
    exact ih (fun db o d hd => one db o d (List.mem_cons_of_mem _ hd))
      (one _ _ _ List.mem_cons_self first h)

/-- **What recording an outcome of a contract of the queue preserves, a run over the queue
preserves**, also one that is stopped. -/
theorem overQueue_preserves (x : Indexer σ) (size number : Nat) {P : Database → Prop}
    {cs : List Contract} (ascending : cs.Pairwise fun a b => a.id < b.id) (summary : IndexSummary)
    (st : IndexState σ) (one : ∀ db o c, c ∈ cs → x.Gives st.db.cast c o → P db → P (db.record o))
    (h : P st.db) : P (x.overQueue size number cs summary st).2.db := by
  fun_induction overQueue x size number cs summary st with
  | case1 => exact h
  | case2 number c rest summary st stop st' stopped =>
    exact (chunk_error (chunk_ascending _ ascending) stopped).2 ▸ h
  | case3 number c rest summary st os st' went ih =>
    obtain ⟨gives, db⟩ := chunk_ok (chunk_ascending _ ascending) went
    refine ih (rest_ascending _ ascending) ?_ ?_
    · rw [db, Database.cast_foldl_record]
      exact fun db o d hd => one db o d (List.mem_cons_of_mem _ (List.mem_of_mem_drop hd))
    · rw [db]
      refine foldl_record_preserves gives (fun db o d hd => one db o d ?_) h
      exact List.mem_of_mem_take (List.take_succ_cons ▸ hd : d ∈ (c :: rest).take (size - 1 + 1))

/-! ## The whole run -/

theorem chunkSize_pos {options : IndexOptions} (accepted : refusal? options = none) :
    0 < options.chunkSize.toNat := by
  unfold refusal? at accepted
  split at accepted
  · cases accepted
  · rename_i valid
    simp only [Bool.or_eq_true, decide_eq_true_eq, not_or] at valid
    omega

/-- **A run goes through the front of the queue** that the reset leaves. -/
theorem index_eq_overQueue (x : Indexer σ) {options : IndexOptions}
    (accepted : refusal? options = none) {db : Database} (stored : db.IsStored) (s : σ) :
    x.index options ⟨db, s⟩ =
      x.overQueue options.chunkSize.toNat 0
        ((db.reset (resetStatuses options)).queue.take
          (budget options ((db.reset (resetStatuses options)).count (some .pending))))
        { reset := db.resetCount (resetStatuses options) } ⟨db.reset (resetStatuses options),
          s⟩ := by
  have kept := stored.reset (resetStatuses options)
  rw [index, accepted]
  refine chunks_eq_overQueue x (chunkSize_pos accepted) _ 0 _ _ kept ?_
  intro c hc
  obtain ⟨r, hr, rfl⟩ := List.mem_map.1 hc
  obtain ⟨mem, -⟩ := Database.mem_pending.1 hr
  rw [(Database.asContract_of_mem kept mem).2]
  exact KeyOrder.lt_of_le_of_ne (String.not_lt.1 (List.not_lt_nil _)) (kept.named r mem).symm

/-- What the reset and every recorded outcome preserve, a run preserves, however it ends. -/
theorem index_preserves (x : Indexer σ) (options : IndexOptions)
    {P : Database → Prop} {db : Database}
    (stored : db.IsStored) (h : P db) (reset : ∀ statuses, P (db.reset statuses))
    (one : ∀ db' o c, c ∈ (db.reset (resetStatuses options)).queue → x.Gives db.cast c o → P db' →
      P (db'.record o)) (s : σ) : P (x.index options ⟨db, s⟩).2.db := by
  cases accepted : refusal? options with
  | some f =>
    rw [index, accepted]
    exact h
  | none =>
    rw [index_eq_overQueue x accepted stored]
    have kept := stored.reset (resetStatuses options)
    refine overQueue_preserves x _ 0
      ((Database.queue_ascending kept).sublist (List.take_sublist _ _))
      _ _ (fun db' o c hc => one db' o c (List.mem_of_mem_take hc)) (reset _)

end Indexer

end SelectorCatalog
