import SelectorCatalog.Proofs.Indexing.Reachable

/-!
# Indexing in chunks is indexing one by one

The reference takes the first pending contracts in ascending order of ids and records the outcome of
one after the other (`Database.indexEach`). Where every contract has one outcome and nothing breaks
down, a run over chunks of any size, finished in any order, ends in the very same tables
(`Database.Reachable.index_eq_reference`), and its summary tells what the tables say afterwards.
-/

set_option autoImplicit false

namespace SelectorCatalog

/-- The outcome of a contract in terms of rows. -/
def rowOutcome (cast : TextCast) (outcome : Contract → IndexOutcome FunctionRecord) (c : Contract) :
    IndexOutcome FunctionRow :=
  (outcome c).inRows cast

/-- The tables after each of the contracts was indexed by itself. -/
def Database.indexEach (outcome : Contract → IndexOutcome FunctionRecord) (db : Database)
    (cs : List Contract) : Database :=
  cs.foldl (fun db c => db.record (rowOutcome db.cast outcome c)) db

theorem Database.indexEach_append (outcome : Contract → IndexOutcome FunctionRecord) (db : Database)
    (first second : List Contract) :
    db.indexEach outcome (first ++ second) =
      (db.indexEach outcome first).indexEach outcome second :=
  List.foldl_append

theorem Database.indexEach_eq (outcome : Contract → IndexOutcome FunctionRecord) (db : Database)
    (cs : List Contract) :
    db.indexEach outcome cs = (cs.map (rowOutcome db.cast outcome)).foldl record db := by
  induction cs generalizing db with
  | nil => rfl
  | cons c rest ih => exact ih (db.record (rowOutcome db.cast outcome c))

@[simp] theorem Database.cast_indexEach (outcome : Contract → IndexOutcome FunctionRecord)
    (db : Database) (cs : List Contract) : (db.indexEach outcome cs).cast = db.cast := by
  rw [indexEach_eq, cast_foldl_record]

/-- The first items of a list: all of them without a limit, and none below zero. -/
def firstOf {α : Type} (limit : Option Int) (items : List α) : List α :=
  match limit with
  | none => items
  | some n => items.take (max 0 n).toNat

/-- Options with which a run starts. -/
structure IndexOptions.IsValid (options : IndexOptions) : Prop where
  chunkSize : 1 ≤ options.chunkSize
  workers : 1 ≤ options.workers
  mode : ¬(options.reindex = true ∧ options.retryFailed = true)

theorem IndexOptions.IsValid.refusal? {options : IndexOptions} (h : options.IsValid) :
    Indexer.refusal? options = none := by
  unfold Indexer.refusal?
  have ⟨size, workers, mode⟩ := h
  rw [if_neg (by simp; omega), if_neg (by simpa using mode)]

/-! ## Indexers with fixed outcomes -/

namespace Indexer

variable {σ : Type}

/-- Whatever is found for a contract is its outcome; a run may be interrupted or break down. -/
def Agrees (x : Indexer σ) (outcome : Contract → IndexOutcome FunctionRecord) : Prop :=
  ∀ c s o, (c.index x.tools x.run s).1 = some o → o = outcome c

/-- Every contract has its outcome, and no transaction breaks down. -/
structure Steady (x : Indexer σ) (outcome : Contract → IndexOutcome FunctionRecord) : Prop where
  finds : ∀ c s, (c.index x.tools x.run s).1 = some (outcome c)
  unbroken : ∀ number, x.breakdown number = none

variable {x : Indexer σ} {outcome : Contract → IndexOutcome FunctionRecord} {cast : TextCast}

theorem Steady.agrees (h : x.Steady outcome) : x.Agrees outcome := by
  intro c s o found
  rw [h.finds c s] at found
  exact (Option.some.inj found).symm

theorem Agrees.eq_map (h : x.Agrees outcome) {cs : List Contract}
    {os : List (IndexOutcome FunctionRow)} (gives : List.Forall₂ (x.Gives cast) cs os) :
    os = cs.map (rowOutcome cast outcome) := by
  induction gives with
  | nil => rfl
  | cons first _ ih =>
    obtain ⟨s, found, indexed, rfl⟩ := first
    rw [List.map_cons, ← ih, h _ _ _ indexed, rowOutcome]

theorem Steady.gives (h : x.Steady outcome) (s : σ) (c : Contract) :
    x.Gives cast c (rowOutcome cast outcome c) :=
  ⟨s, outcome c, h.finds c s, rfl⟩

theorem Steady.all_give (h : x.Steady outcome) (s : σ) (cs : List Contract) :
    List.Forall₂ (x.Gives cast) cs (cs.map (rowOutcome cast outcome)) := by
  induction cs with
  | nil => exact .nil
  | cons c rest ih => exact .cons (h.gives s c) ih

theorem Steady.outcomes (h : x.Steady outcome) (cs : List Contract) (s : σ) :
    ∃ s', x.outcomes cs s = (some (cs.map outcome), s') := by
  induction cs generalizing s with
  | nil => exact ⟨s, rfl⟩
  | cons c rest ih =>
    obtain ⟨s', others⟩ := ih (c.index x.tools x.run s).2
    have first : c.index x.tools x.run s = (some (outcome c), (c.index x.tools x.run s).2) :=
      Prod.ext (h.finds c s) rfl
    refine ⟨s', ?_⟩
    rw [Indexer.outcomes, first]
    simp only [others]
    rfl

/-- A chunk of a steady indexer always goes through. -/
theorem Steady.chunk (h : x.Steady outcome) (number : Nat) {cs : List Contract}
    (ascending : cs.Pairwise fun a b => a.id < b.id) (st : IndexState σ) :
    ∃ s', x.chunk number cs st =
      (.ok (cs.map (rowOutcome st.db.cast outcome)), ⟨st.db.indexEach outcome cs, s'⟩) := by
  obtain ⟨s', found⟩ := h.outcomes (x.schedule cs) st.compiler
  have sorted : sortOutcomes (((x.schedule cs).map outcome).map (IndexOutcome.inRows st.db.cast)) =
      cs.map (rowOutcome st.db.cast outcome) := by
    rw [List.map_map]
    exact h.agrees.eq_map
      (sortOutcomes_of_perm ascending (x.schedule_perm cs) (h.all_give st.compiler _))
  have gives : List.Forall₂ (x.Gives st.db.cast) cs _ := h.all_give st.compiler cs
  have distinct : ((cs.map (rowOutcome st.db.cast outcome)).map IndexOutcome.contractId).Nodup := by
    rw [ids_of_gives gives]
    exact List.pairwise_map.2 (ascending.imp String.ne_of_lt)
  refine ⟨s', ?_⟩
  rw [Indexer.chunk, found]
  simp only [sorted, h.unbroken, Database.commit_none (isSound_of_gives gives) distinct]
  rw [Database.indexEach_eq]

/-- **A run over a queue of a steady indexer** records the outcomes one by one. -/
theorem Steady.overQueue (h : x.Steady outcome) (size number : Nat) {cs : List Contract}
    (ascending : cs.Pairwise fun a b => a.id < b.id) (summary : IndexSummary) (st : IndexState σ) :
    ∃ s', x.overQueue size number cs summary st =
      (.ok ((cs.map (rowOutcome st.db.cast outcome)).foldl IndexSummary.add summary),
        ⟨st.db.indexEach outcome cs, s'⟩) := by
  fun_induction Indexer.overQueue x size number cs summary st with
  | case1 number summary st => exact ⟨st.compiler, rfl⟩
  | case2 number c rest summary st stop st' stopped =>
    obtain ⟨s', went⟩ := h.chunk number (chunk_ascending _ ascending) st
    rw [went] at stopped
    cases stopped
  | case3 number c rest summary st os st' went ih =>
    obtain ⟨s', done⟩ := h.chunk number (chunk_ascending _ ascending) st
    rw [went] at done
    cases done
    obtain ⟨s'', run⟩ := ih (rest_ascending _ ascending)
    refine ⟨s'', ?_⟩
    rw [run, Database.cast_indexEach, ← Database.indexEach_append, ← List.foldl_append,
      ← List.map_append, List.cons_append, List.take_append_drop]

end Indexer

/-! ## Summaries -/

namespace IndexSummary

/-- What a summary counts of the outcomes of a run. -/
structure Counts (summary before : IndexSummary) (os : List (IndexOutcome FunctionRow)) : Prop where
  indexed : summary.indexed = before.indexed + os.countP fun o => o.status = .indexed
  failed : summary.failed = before.failed + os.countP fun o => o.status ≠ .indexed
  functions : summary.functions = before.functions +
    ((os.filter fun o => o.status = .indexed).flatMap IndexOutcome.functions).length
  reset : summary.reset = before.reset
  total : Assoc.total summary.failures.entries =
    Assoc.total before.failures.entries + os.countP fun o => o.status ≠ .indexed
  failures : ∀ name, (summary.failures.get? name).getD 0 = (before.failures.get? name).getD 0 +
    os.countP fun o => o.status ≠ .indexed ∧ Database.failureName o.errorKind = name

theorem counts_add (summary : IndexSummary) (o : IndexOutcome FunctionRow) :
    (summary.add o).Counts summary [o] := by
  unfold add
  split
  · rename_i done
    constructor <;> simp [done]
  · rename_i undone
    constructor
    · simp [undone]
    · simp [undone]
    · simp [undone]
    · rfl
    · have sum := Assoc.total_set (Database.failureName o.errorKind)
        ((summary.failures.get? (Database.failureName o.errorKind)).getD 0 + 1)
          summary.failures.entries
      have one : [o].countP (fun o => o.status ≠ .indexed) = 1 := by simp [undone]
      rw [one]
      simp only [OrderedMap.get?, OrderedMap.insert] at sum ⊢
      omega
    · intro name
      by_cases same : Database.failureName o.errorKind = name
      · subst same
        simp [undone]
      · rw [OrderedMap.get?_insert_of_ne _ (Ne.symm same)]
        simp [same]

theorem Counts.trans {first second third : IndexSummary} {os ps : List (IndexOutcome FunctionRow)}
    (h : second.Counts first os) (g : third.Counts second ps) : third.Counts first (os ++ ps) where
  indexed := by rw [g.indexed, h.indexed, List.countP_append, Nat.add_assoc]
  failed := by rw [g.failed, h.failed, List.countP_append, Nat.add_assoc]
  functions := by
    rw [g.functions, h.functions, List.filter_append, List.flatMap_append, List.length_append,
      Nat.add_assoc]
  reset := g.reset.trans h.reset
  total := by rw [g.total, h.total, List.countP_append, Nat.add_assoc]
  failures := fun name => by rw [g.failures, h.failures, List.countP_append, Nat.add_assoc]

theorem counts_foldl (os : List (IndexOutcome FunctionRow)) (summary : IndexSummary) :
    (os.foldl add summary).Counts summary os := by
  induction os generalizing summary with
  | nil => constructor <;> simp
  | cons o rest ih => exact (counts_add summary o).trans (ih (summary.add o))

end IndexSummary

/-! ## The reference -/

/-- What a summary says about the contracts that were taken and about the tables afterwards. -/
structure IndexSummary.Tells (summary : IndexSummary) (taken : List Contract)
    (after : Database) : Prop where
  processed : summary.indexed + summary.failed = taken.length
  indexed : summary.indexed = taken.countP fun c =>
    (after.row? c.id).any fun r => r.status == ContractStatus.indexed.label
  functions : summary.functions =
    (after.functions.filter fun f => decide (f.contractId ∈ taken.map fun c => some c.id)).length
  failures : ∀ name, (summary.failures.get? name).getD 0 = taken.countP fun c =>
    (after.row? c.id).any fun r =>
      r.status == ContractStatus.failed.label && Database.failureName r.errorKind == name
  /-- Every failed contract is counted under one name. -/
  total : Assoc.total summary.failures.entries = summary.failed

/-- The tables agree about all contracts but some. -/
structure Database.AgreeBut (ids : List String) (db after : Database) : Prop where
  contracts : after.contracts.filter (fun r => decide (r.id ∉ ids)) =
    db.contracts.filter fun r => decide (r.id ∉ ids)
  functions : after.functions.filter (fun f => decide (f.contractId ∉ ids.map some)) =
    db.functions.filter fun f => decide (f.contractId ∉ ids.map some)

namespace Database

/-- Contracts of a table with different ids, and outcomes that are found for them. -/
structure Takes {σ : Type} (db : Database) (x : Indexer σ)
    (outcome : Contract → IndexOutcome FunctionRecord) (cs : List Contract) : Prop where
  distinct : (cs.map Contract.id).Nodup
  known : ∀ c ∈ cs, c.id ∈ db.contracts.map ContractRow.id
  gives : List.Forall₂ (x.Gives db.cast) cs (cs.map (rowOutcome db.cast outcome))

section

variable {σ : Type} {db : Database} {x : Indexer σ} {outcome : Contract →
  IndexOutcome FunctionRecord} {cs : List Contract}

theorem Takes.ids (h : db.Takes x outcome cs) :
    (cs.map (rowOutcome db.cast outcome)).map IndexOutcome.contractId = cs.map Contract.id :=
  Indexer.ids_of_gives h.gives

theorem Takes.owners (h : db.Takes x outcome cs) :
    (cs.map (rowOutcome db.cast outcome)).map (fun o => some o.contractId) =
      cs.map fun c => some c.id := by
  have ids := congrArg (List.map some) h.ids
  simpa only [List.map_map, Function.comp_def] using ids

theorem Takes.agreeBut (h : db.Takes x outcome cs) :
    AgreeBut (cs.map Contract.id) db (db.indexEach outcome cs) := by
  rw [indexEach_eq]
  constructor
  · refine other_contracts_foldl_record db ?_
    intro o ho
    rw [← h.ids]
    exact List.mem_map_of_mem ho
  · have functions := functions_foldl_record db
      (fun o ho => (Indexer.isSound_of_gives h.gives o ho).owned) (h.ids ▸ h.distinct)
    rw [h.owners] at functions
    rw [List.map_map]
    exact functions.1

theorem Takes.contractId (h : db.Takes x outcome cs) {c : Contract} (hc : c ∈ cs) :
    (rowOutcome db.cast outcome c).contractId = c.id := by
  have ids := h.ids
  rw [List.map_map] at ids
  exact List.map_inj_left.1 ids c hc

theorem Takes.sound (h : db.Takes x outcome cs) {c : Contract} (hc : c ∈ cs) :
    (rowOutcome db.cast outcome c).IsSound :=
  Indexer.isSound_of_gives h.gives _ (List.mem_map_of_mem hc)

/-- The row of a contract that was taken tells its outcome. -/
theorem Takes.row? (h : db.Takes x outcome cs) {c : Contract} (hc : c ∈ cs) :
    ∃ r, (db.indexEach outcome cs).row? c.id = some r ∧
      r.status = (rowOutcome db.cast outcome c).status.label ∧
      r.errorKind = (rowOutcome db.cast outcome c).errorKind := by
  have row := exists_row?_foldl_record db (h.ids ▸ h.distinct) (List.mem_map_of_mem hc)
    (h.contractId hc ▸ h.known c hc)
  rw [h.contractId hc] at row
  obtain ⟨r, found, status, kind, -⟩ := row
  exact ⟨r, indexEach_eq outcome db cs ▸ found, status, kind⟩

theorem Takes.indexed_iff (h : db.Takes x outcome cs) {c : Contract} (hc : c ∈ cs) :
    (rowOutcome db.cast outcome c).status = .indexed ↔
      ((db.indexEach outcome cs).row? c.id).any fun r => r.status ==
        ContractStatus.indexed.label := by
  obtain ⟨r, found, status, -⟩ := h.row? hc
  rw [found, Option.any_some, beq_iff_eq, status]
  exact ⟨congrArg _, ContractStatus.label_injective⟩

theorem Takes.failed_iff (h : db.Takes x outcome cs) {c : Contract} (hc : c ∈ cs) (name : String) :
    ((rowOutcome db.cast outcome c).status ≠ .indexed ∧
      failureName (rowOutcome db.cast outcome c).errorKind = name) ↔
      ((db.indexEach outcome cs).row? c.id).any fun r =>
        r.status == ContractStatus.failed.label && failureName r.errorKind == name := by
  obtain ⟨r, found, status, kind⟩ := h.row? hc
  have done : (rowOutcome db.cast outcome c).status ≠ .indexed ↔
      (rowOutcome db.cast outcome c).status = .failed := by
    rcases (h.sound hc).done with done | done <;> simp [done]
  rw [found, Option.any_some, Bool.and_eq_true, beq_iff_eq, beq_iff_eq, status, kind, done]
  exact and_congr_left fun _ => ⟨congrArg _, ContractStatus.label_injective⟩

/-- Only indexed contracts have functions to be counted. -/
theorem flatMap_functions_indexed {os : List (IndexOutcome FunctionRow)}
    (sound : ∀ o ∈ os, o.IsSound) :
    (os.filter fun o => o.status = .indexed).flatMap IndexOutcome.functions =
      os.flatMap IndexOutcome.functions := by
  induction os with
  | nil => rfl
  | cons o rest ih =>
    have others := ih fun p hp => sound p (List.mem_cons_of_mem _ hp)
    have first := sound o List.mem_cons_self
    rcases first.done with done | done
    · rw [List.filter_cons_of_pos (by simpa using done), List.flatMap_cons, List.flatMap_cons,
        others]
    · rw [List.filter_cons_of_neg (by simp [done]), List.flatMap_cons, others, first.empty done,
        List.nil_append]

/-- The functions of contracts that were taken are those of their outcomes. -/
theorem Takes.functions (h : db.Takes x outcome cs) :
    ((db.indexEach outcome cs).functions.filter fun f =>
      decide (f.contractId ∈ cs.map fun c => some c.id)) =
        (cs.map (rowOutcome db.cast outcome)).flatMap IndexOutcome.functions := by
  rw [indexEach_eq, ← h.owners]
  exact (functions_foldl_record db (fun o ho => (Indexer.isSound_of_gives h.gives o ho).owned)
    (h.ids ▸ h.distinct)).2

theorem Takes.mem_functions (h : db.Takes x outcome cs) {c : Contract} (hc : c ∈ cs)
    {f : FunctionRow} (hf : f ∈ (rowOutcome db.cast outcome c).functions) :
    f ∈ (db.indexEach outcome cs).functions := by
  have brought := List.mem_flatMap.2 ⟨_, List.mem_map_of_mem hc, hf⟩
  rw [← h.functions] at brought
  exact (List.mem_filter.1 brought).1

/-- **A summary of the outcomes tells what the tables say.** -/
theorem Takes.tells (h : db.Takes x outcome cs) (reset : Nat) :
    ((cs.map (rowOutcome db.cast outcome)).foldl IndexSummary.add { reset }).Tells cs
      (db.indexEach outcome cs) := by
  have counts := IndexSummary.counts_foldl (cs.map (rowOutcome db.cast outcome)) { reset }
  have sound := Indexer.isSound_of_gives h.gives
  refine ⟨?_, ?_, ?_, ?_, ?_⟩
  · rw [counts.indexed, counts.failed]
    have parts := List.length_eq_countP_add_countP (fun o : IndexOutcome FunctionRow =>
      decide (o.status = .indexed)) (l := cs.map (rowOutcome db.cast outcome))
    simp only [List.length_map] at parts
    simp only [Nat.zero_add, ne_eq, decide_not]
    simpa using parts.symm
  · rw [counts.indexed, List.countP_map, Nat.zero_add]
    exact List.countP_congr fun c hc => by simpa using h.indexed_iff hc
  · rw [counts.functions, flatMap_functions_indexed sound, Nat.zero_add, h.functions]
  · intro name
    rw [counts.failures, List.countP_map]
    simp only [OrderedMap.get?, OrderedMap.empty, Assoc.get?, Option.getD_none, Nat.zero_add]
    exact List.countP_congr fun c hc => by simpa using h.failed_iff hc name
  · rw [counts.total, counts.failed]
    rfl

end

/-! ## Whole runs -/

theorem firstOf_queue (db : Database) (options : IndexOptions) :
    db.queue.take (Indexer.budget options (db.count (some .pending))) =
      (firstOf options.limit db.pending).map ContractRow.asContract := by
  have size : db.count (some .pending) = db.pending.length :=
    (KeyOrder.sort_perm ContractRow.id _).length_eq.symm
  unfold Indexer.budget firstOf queue
  cases options.limit with
  | none => rw [size, ← List.length_map ContractRow.asContract, List.take_length]
  | some limit =>
    simp only [size, List.map_take]
    rcases Int.le_total limit db.pending.length with less | more
    · congr 1
      omega
    · rw [List.take_of_length_le (by rw [List.length_map]; omega),
        List.take_of_length_le (by rw [List.length_map]; omega)]

theorem firstOf_sublist {α : Type} (limit : Option Int) (items : List α) :
    (firstOf limit items).Sublist items := by
  unfold firstOf
  split
  · exact List.Sublist.refl _
  · exact List.take_sublist _ _

/-- **A run of a steady indexer** records the outcomes of the first pending contracts. -/
theorem index_of_steady {σ : Type} {db : Database} (stored : db.IsStored) {x : Indexer σ}
    {outcome : Contract → IndexOutcome FunctionRecord} (steady : x.Steady outcome)
    {options : IndexOptions} (valid : options.IsValid) (s : σ) :
    let start := db.reset (Indexer.resetStatuses options)
    let taken := (firstOf options.limit start.pending).map ContractRow.asContract
    ∃ s', x.index options ⟨db, s⟩ =
      (.ok ((taken.map (rowOutcome db.cast outcome)).foldl IndexSummary.add
          { reset := db.resetCount (Indexer.resetStatuses options) }),
        ⟨start.indexEach outcome taken, s'⟩) := by
  intro start taken
  have ascending : taken.Pairwise fun a b => a.id < b.id :=
    (queue_ascending (stored.reset _)).sublist ((firstOf_sublist _ _).map _)
  obtain ⟨s', run⟩ := steady.overQueue options.chunkSize.toNat 0 ascending
    { reset := db.resetCount (Indexer.resetStatuses options) } ⟨start, s⟩
  exact ⟨s', by rw [x.index_eq_overQueue valid.refusal? stored, firstOf_queue, run]; rfl⟩

theorem mem_of_firstOf_pending {db : Database} {limit : Option Int} {r : ContractRow}
    (hr : r ∈ firstOf limit db.pending) : r ∈ db.contracts :=
  (mem_pending.1 ((firstOf_sublist _ _).mem hr)).1

/-- A steady indexer takes the first pending contracts. -/
theorem takes_pending {σ : Type} {db : Database} (stored : db.IsStored) {x : Indexer σ}
    {outcome : Contract → IndexOutcome FunctionRecord} (steady : x.Steady outcome)
    (limit : Option Int) (s : σ) :
    db.Takes x outcome ((firstOf limit db.pending).map ContractRow.asContract) := by
  refine ⟨?_, ?_, steady.all_give s _⟩
  · rw [List.map_map, List.map_congr_left fun r hr =>
      show (Contract.id ∘ ContractRow.asContract) r = r.id from
        (asContract_of_mem stored (mem_of_firstOf_pending hr)).2]
    exact List.pairwise_map.2
      (((pending_ascending stored).sublist (firstOf_sublist _ _)).imp String.ne_of_lt)
  · intro c hc
    obtain ⟨r, hr, rfl⟩ := List.mem_map.1 hc
    have mem := mem_of_firstOf_pending hr
    exact (asContract_of_mem stored mem).2 ▸ List.mem_map_of_mem mem

/-- **Indexing in chunks is indexing one by one**, for chunks of any size that are finished in any
order. -/
theorem Reachable.index_eq_reference {σ : Type} {db : Database} (h : Reachable db) (x : Indexer σ)
    {outcome : Contract → IndexOutcome FunctionRecord} (steady : x.Steady outcome)
    (options : IndexOptions) (valid : options.IsValid) (s : σ) :
    let start := db.reset (Indexer.resetStatuses options)
    let rows := firstOf options.limit start.pending
    ∃ taken summary s',
      rows.mapM ContractRow.contract = .ok taken ∧
      taken.map Contract.id = rows.map ContractRow.id ∧
      x.index options ⟨db, s⟩ = (.ok summary, ⟨start.indexEach outcome taken, s'⟩) ∧
      start.AgreeBut (taken.map Contract.id) (start.indexEach outcome taken) ∧
      summary.Tells taken (start.indexEach outcome taken) ∧
      summary.reset = db.resetCount (Indexer.resetStatuses options) := by
  intro start rows
  have stored : start.IsStored := h.isStored.reset _
  have mem : ∀ r ∈ rows, r ∈ start.contracts := fun r => mem_of_firstOf_pending
  have ids : (rows.map ContractRow.asContract).map Contract.id = rows.map ContractRow.id := by
    rw [List.map_map]
    exact List.map_congr_left fun r hr => (asContract_of_mem stored (mem r hr)).2
  have takes := takes_pending stored steady options.limit s
  obtain ⟨s', run⟩ := index_of_steady h.isStored steady valid s
  exact ⟨_, _, s', mapM_ok fun r hr => (asContract_of_mem stored (mem r hr)).1, ids, run,
    takes.agreeBut, takes.tells _, (IndexSummary.counts_foldl _ _).reset⟩

/-- Without a compiler, the contracts of two folders fail one by one, last things first in every
chunk. -/
theorem index_twoFolders :
    let x : Indexer Unit :=
      { Indexer.withoutCompiler with schedule := List.reverse, schedule_perm := List.reverse_perm }
    ∃ taken summary,
      x.index { retryFailed := true } ⟨twoFolders, ()⟩ =
        (.ok summary, ⟨(twoFolders.reset [.failed]).indexEach Contract.outcomeWithoutCompiler taken,
          ()⟩) ∧
      taken.length = 2 ∧ summary.indexed + summary.failed = 2 := by
  intro x
  have steady : x.Steady Contract.outcomeWithoutCompiler := ⟨fun _ _ => rfl, fun _ => rfl⟩
  have valid : ({ retryFailed := true } : IndexOptions).IsValid := ⟨by decide, by decide, by decide⟩
  obtain ⟨taken, summary, _, -, ids, run, -, tells, -⟩ :=
    Reachable.index_eq_reference reachable_twoFolders x steady _ valid ()
  have two : taken.length = 2 := by
    have lengths := congrArg List.length ids
    simp only [List.length_map] at lengths
    exact lengths.trans (length_pending_twoFolders _)
  exact ⟨taken, summary, run, two, tells.processed.trans two⟩

end Database

end SelectorCatalog
