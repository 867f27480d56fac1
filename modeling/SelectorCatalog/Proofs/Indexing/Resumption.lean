import SelectorCatalog.Proofs.Indexing.Reference

/-!
# A run that is stopped is taken up again

A run is stopped by the user or by the database, in one of its chunks (`Indexer.StopsIn`). The
tables are then those after the chunks before it, and nothing of the chunk itself has come in. A
plain run that follows takes up the rest and ends in the tables that the run would have ended in
undisturbed, however it cuts its own chunks (`Database.Reachable.resume_eq_undisturbed`).
-/

set_option autoImplicit false

namespace SelectorCatalog

namespace Indexer

variable {σ : Type}

/-- A run over a queue is stopped after `j` chunks: these go through, and the next one does not. The
run counts its chunks from `number` on. -/
inductive StopsIn (x : Indexer σ) (size : Nat) (stop : Stop StorageFailure) :
    Nat → List Contract → IndexState σ → Nat → Prop where
  | here {number : Nat} {cs : List Contract} {st st' : IndexState σ} (some_left : cs ≠ [])
      (stopped : x.chunk number (cs.take size) st = (.error stop, st')) :
      StopsIn x size stop number cs st 0
  | later {number j : Nat} {cs : List Contract} {st st' : IndexState σ}
      {os : List (IndexOutcome FunctionRow)} (some_left : cs ≠ [])
      (went : x.chunk number (cs.take size) st = (.ok os, st'))
      (rest : StopsIn x size stop (number + 1) (cs.drop size) st' j) :
      StopsIn x size stop number cs st (j + 1)

variable {x : Indexer σ} {size : Nat} {stop : Stop StorageFailure}

theorem take_of_pos {α : Type} (positive : 0 < size) (a : α) (rest : List α) :
    (a :: rest).take size = a :: rest.take (size - 1) := List.take_cons positive

theorem drop_of_pos {α : Type} (positive : 0 < size) (a : α) (rest : List α) :
    (a :: rest).drop size = rest.drop (size - 1) := by
  obtain ⟨n, rfl⟩ : ∃ n, size = n + 1 := ⟨size - 1, by omega⟩
  rfl

/-- **A run over a queue is stopped in one of its chunks**, or not at all. -/
theorem overQueue_error_iff (positive : 0 < size) (number : Nat) (cs : List Contract)
    (summary : IndexSummary) (st : IndexState σ) :
    (x.overQueue size number cs summary st).1 = .error stop ↔
      ∃ j, x.StopsIn size stop number cs st j := by
  fun_induction overQueue x size number cs summary st with
  | case1 number summary st =>
    constructor
    · intro h
      cases h
    · rintro ⟨j, stops⟩
      cases stops <;> contradiction
  | case2 number c rest summary st other st' stopped =>
    rw [← take_of_pos positive] at stopped
    constructor
    · intro h
      cases h
      exact ⟨0, .here (List.cons_ne_nil _ _) stopped⟩
    · rintro ⟨j, stops⟩
      cases stops with
      | here _ again => rw [stopped] at again; cases again; rfl
      | later _ went _ => rw [stopped] at went; cases went
  | case3 number c rest summary st os st' went ih =>
    rw [← take_of_pos positive] at went
    rw [ih, ← drop_of_pos positive]
    constructor
    · rintro ⟨j, stops⟩
      exact ⟨j + 1, .later (List.cons_ne_nil _ _) went stops⟩
    · rintro ⟨j, stops⟩
      cases stops with
      | here _ stopped => rw [went] at stopped; cases stopped
      | later _ again stops => rw [went] at again; cases again; exact ⟨_, stops⟩

/-- **A stopped run leaves the tables after the chunks before it.** -/
theorem StopsIn.db {outcome : Contract → IndexOutcome FunctionRecord} (agrees : x.Agrees outcome)
    (positive : 0 < size) {number j : Nat} {cs : List Contract} {st : IndexState σ}
    (h : x.StopsIn size stop number cs st j) (ascending : cs.Pairwise fun a b => a.id < b.id)
    (summary : IndexSummary) :
    IsDisturbance stop ∧ (x.overQueue size number cs summary st).2.db =
      st.db.indexEach outcome (cs.take (j * size)) := by
  induction h generalizing summary with
  | @here number cs st st' some_left stopped =>
    obtain ⟨c, rest, rfl⟩ := List.exists_cons_of_ne_nil some_left
    obtain ⟨disturbance, same⟩ := chunk_error (ascending.sublist (List.take_sublist _ _)) stopped
    rw [take_of_pos positive] at stopped
    refine ⟨disturbance, ?_⟩
    rw [overQueue, stopped, Nat.zero_mul, List.take_zero]
    exact same
  | @later number j cs st st' os some_left went rest ih =>
    obtain ⟨gives, recorded⟩ := chunk_ok (ascending.sublist (List.take_sublist _ _)) went
    obtain ⟨c, more, rfl⟩ := List.exists_cons_of_ne_nil some_left
    have later := ih (ascending.sublist (List.drop_sublist _ _)) (os.foldl IndexSummary.add summary)
    have front : st'.db = st.db.indexEach outcome ((c :: more).take size) := by
      rw [recorded, agrees.eq_map gives, Database.indexEach_eq]
    have both : (c :: more).take ((j + 1) * size) =
        (c :: more).take size ++ ((c :: more).drop size).take (j * size) := by
      rw [Nat.succ_mul, Nat.add_comm, List.take_add]
    refine ⟨later.1, ?_⟩
    rw [overQueue, ← take_of_pos positive, went, ← drop_of_pos positive]
    exact later.2.trans (by rw [front, both, Database.indexEach_append])

/-! ## A breakdown in the second chunk -/

/-- An indexer with no compiler installed, for which only the transaction of the first chunk goes
through. -/
def breakingDown : Indexer Unit :=
  { withoutCompiler with breakdown := fun number => if number = 0 then none else some 0 }

theorem steady_withoutCompiler : withoutCompiler.Steady Contract.outcomeWithoutCompiler :=
  ⟨fun _ _ => rfl, fun _ => rfl⟩

theorem outcomes_breakingDown (c : Contract) :
    breakingDown.outcomes (breakingDown.schedule [c]) () =
      (some [c.outcomeWithoutCompiler], ()) := rfl

theorem sortOutcomes_singleton (o : IndexOutcome FunctionRow) : sortOutcomes [o] = [o] :=
  List.mergeSort_singleton o

theorem stopsIn_breakingDown (db : Database) (a b : Contract) :
    breakingDown.StopsIn 1 (.failure .breakdown) 0 [a, b] ⟨db, ()⟩ 1 := by
  have committed : db.commit [a.outcomeWithoutCompiler.inRows db.cast] (breakingDown.breakdown 0) =
      .ok (db.record (a.outcomeWithoutCompiler.inRows db.cast)) :=
    Database.commit_none (isSound_of_gives (steady_withoutCompiler.all_give () [a]))
      (List.nodup_singleton _)
  have broken (db : Database) :
      db.commit [b.outcomeWithoutCompiler.inRows db.cast] (breakingDown.breakdown 1) =
        .error .breakdown := rfl
  have first : breakingDown.chunk 0 [a] ⟨db, ()⟩ =
      (.ok [a.outcomeWithoutCompiler.inRows db.cast],
        ⟨db.record (a.outcomeWithoutCompiler.inRows db.cast), ()⟩) := by
    simp only [chunk, outcomes_breakingDown, List.map_singleton, sortOutcomes_singleton, committed]
  have second (db : Database) :
      breakingDown.chunk 1 [b] ⟨db, ()⟩ = (.error (.failure .breakdown), ⟨db, ()⟩) := by
    simp only [chunk, outcomes_breakingDown, List.map_singleton, sortOutcomes_singleton, broken]
  exact .later (List.cons_ne_nil _ _) first (.here (List.cons_ne_nil _ _) (second _))

end Indexer

/-! ## The run that follows -/

/-- Options of a run that moves nothing back and has no limit. -/
structure IndexOptions.IsPlain (options : IndexOptions) : Prop extends options.IsValid where
  reindex : options.reindex = false
  retryFailed : options.retryFailed = false
  unlimited : options.limit = none

theorem IndexOptions.IsPlain.resetStatuses {options : IndexOptions} (h : options.IsPlain) :
    Indexer.resetStatuses options = [] := by
  simp [Indexer.resetStatuses, h.reindex, h.retryFailed]

namespace Database

theorem reset_nil (db : Database) : db.reset [] = db := by
  have same : (fun r : ContractRow => r.back []) = fun r => r := by
    funext r
    simp [ContractRow.back, isReset]
  show { db with contracts := db.contracts.map fun r => r.back [] } = db
  rw [same, List.map_id']

/-- A run without limit of a steady indexer goes through the whole queue. -/
theorem index_unlimited {σ : Type} {db : Database} (stored : db.IsStored) {x : Indexer σ}
    {outcome : Contract → IndexOutcome FunctionRecord} (steady : x.Steady outcome)
    {options : IndexOptions} (valid : options.IsValid) (unlimited : options.limit = none) (s : σ) :
    let start := db.reset (Indexer.resetStatuses options)
    ∃ summary s', x.index options ⟨db, s⟩ =
      (.ok summary, ⟨start.indexEach outcome start.queue, s'⟩) := by
  obtain ⟨s', run⟩ := index_of_steady stored steady valid s
  rw [unlimited] at run
  exact ⟨_, s', run⟩

/-- The rest of a queue is what is pending after the front of it was indexed. -/
theorem queue_indexEach {σ : Type} {db : Database} (stored : db.IsStored) {x : Indexer σ}
    {outcome : Contract → IndexOutcome FunctionRecord} (steady : x.Steady outcome) (s : σ)
    (count : Nat) :
    (db.indexEach outcome (db.queue.take count)).queue = db.queue.drop count := by
  have gives : List.Forall₂ (x.Gives db.cast) (db.queue.take count) _ := steady.all_give s _
  rw [indexEach_eq]
  exact queue_foldl_record stored (fun o ho => (Indexer.isSound_of_gives gives o ho).toEnds) count
    (Indexer.ids_of_gives gives)

/-- **A stopped run is taken up again without loss or doubling.** -/
theorem Reachable.resume_eq_undisturbed {σ : Type} {db : Database} (h : Reachable db)
    (x : Indexer σ) {outcome : Contract → IndexOutcome FunctionRecord} (agrees : x.Agrees outcome)
    (options : IndexOptions) (valid : options.IsValid) (unlimited : options.limit = none) (s : σ)
    (stop : Stop StorageFailure) :
    let start := db.reset (Indexer.resetStatuses options)
    let size := options.chunkSize.toNat
    start.pending.mapM ContractRow.contract = .ok start.queue ∧
    ((x.index options ⟨db, s⟩).1 = .error stop ↔
      ∃ j, x.StopsIn size stop 0 start.queue ⟨start, s⟩ j) ∧
    ∀ j, x.StopsIn size stop 0 start.queue ⟨start, s⟩ j →
      Indexer.IsDisturbance stop ∧
      (x.index options ⟨db, s⟩).2.db = start.indexEach outcome (start.queue.take (j * size)) ∧
      ∀ {τ υ : Type} (y : Indexer τ) (z : Indexer υ), y.Steady outcome → z.Steady outcome →
        ∀ (again : IndexOptions), again.IsPlain → ∀ (t : τ) (u : υ),
          ∃ after resumed undisturbed t' u',
            y.index again ⟨(x.index options ⟨db, s⟩).2.db, t⟩ = (.ok resumed, ⟨after, t'⟩) ∧
            z.index options ⟨db, u⟩ = (.ok undisturbed, ⟨after, u'⟩) := by
  intro start size
  have stored : start.IsStored := h.isStored.reset _
  have whole : x.index options ⟨db, s⟩ = x.overQueue size 0 start.queue
      { reset := db.resetCount (Indexer.resetStatuses options) } ⟨start, s⟩ := by
    rw [x.index_eq_overQueue valid.refusal? h.isStored, firstOf_queue, unlimited]
    rfl
  have positive : 0 < size := Indexer.chunkSize_pos valid.refusal?
  refine ⟨?_, ?_, ?_⟩
  · exact mapM_ok fun r hr => (asContract_of_mem stored (mem_pending.1 hr).1).1
  · rw [whole]
    exact Indexer.overQueue_error_iff positive 0 _ _ _
  intro j stops
  obtain ⟨disturbance, left⟩ := stops.db agrees positive (queue_ascending stored)
    { reset := db.resetCount (Indexer.resetStatuses options) }
  rw [whole]
  refine ⟨disturbance, left, ?_⟩
  intro τ υ y z hy hz again plain t u
  have left_stored : (start.indexEach outcome (start.queue.take (j * size))).IsStored := by
    rw [indexEach_eq]
    exact stored.foldl_record _
  obtain ⟨resumed, t', second⟩ := index_unlimited left_stored hy plain.toIsValid plain.unlimited t
  obtain ⟨undisturbed, u', single⟩ := index_unlimited h.isStored hz valid unlimited u
  refine ⟨_, resumed, undisturbed, t', u', ?_, single⟩
  rw [left, second, plain.resetStatuses, reset_nil, queue_indexEach stored hy t, ← indexEach_append,
    List.take_append_drop]

/-- The second of two folders is taken up again after the transaction of its chunk broke down. -/
theorem resume_twoFolders :
    ∃ after resumed undisturbed,
      (Indexer.breakingDown.index { chunkSize := 1 } ⟨twoFolders, ()⟩).1 =
        .error (.failure .breakdown) ∧
      Indexer.withoutCompiler.index {}
        ⟨(Indexer.breakingDown.index { chunkSize := 1 } ⟨twoFolders, ()⟩).2.db, ()⟩ =
          (.ok resumed, ⟨after, ()⟩) ∧
      Indexer.withoutCompiler.index { chunkSize := 1 } ⟨twoFolders,
        ()⟩ = (.ok undisturbed, ⟨after, ()⟩) := by
  have steady := Indexer.steady_withoutCompiler
  have valid : ({ chunkSize := 1 } : IndexOptions).IsValid := ⟨by decide, by decide, by decide⟩
  have plain : ({} : IndexOptions).IsPlain := ⟨⟨by decide, by decide, by decide⟩, rfl, rfl, rfl⟩
  obtain ⟨-, stopped, left⟩ := Reachable.resume_eq_undisturbed reachable_twoFolders
    Indexer.breakingDown (fun c s => steady.agrees c s) _ valid rfl () (.failure .breakdown)
  have two : (twoFolders.reset []).queue.length = 2 := by
    rw [queue, List.length_map, length_pending_twoFolders]
  obtain ⟨a, b, queue⟩ := List.length_eq_two.1 two
  have stops : Indexer.breakingDown.StopsIn 1 (.failure .breakdown) 0 (twoFolders.reset []).queue
      ⟨twoFolders.reset [], ()⟩ 1 :=
    queue ▸ Indexer.stopsIn_breakingDown _ a b
  obtain ⟨-, -, again⟩ := left 1 stops
  obtain ⟨after, resumed, undisturbed, _, _, second, single⟩ :=
    again _ _ steady steady {} plain () ()
  exact ⟨after, resumed, undisturbed, stopped.2 ⟨1, stops⟩, second, single⟩

end Database

end SelectorCatalog
