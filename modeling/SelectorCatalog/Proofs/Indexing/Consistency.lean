import SelectorCatalog.Proofs.Compiler.Returned
import SelectorCatalog.Proofs.Indexing.Reference

/-!
# The tables stay consistent

No constraint of the tables says that a selector occurs once in a contract, that a function belongs
to a contract, or that a failure has a reason. `Database.Consistent` collects these rules. Storing a
contract, moving contracts back to pending and recording an outcome keep them one by one, and so
every reachable database has them (`Database.Reachable.consistent`). Contracts that were moved back
keep the functions of their last run until they are indexed again.
-/

set_option autoImplicit false

namespace SelectorCatalog

/-! ## Rows -/

/-- A row has a reason exactly if its contract failed, and remembers that its contract was
indexed. -/
structure ContractRow.IsConsistent (r : ContractRow) : Prop where
  kind : r.errorKind.isSome ↔ r.status = ContractStatus.failed.label
  message : r.errorMessage.isSome ↔ r.status = ContractStatus.failed.label
  seen : r.status = ContractStatus.indexed.label ∨ r.status = ContractStatus.failed.label →
    r.wasIndexed = true

namespace ContractRow

theorem isConsistent_of_pending {r : ContractRow} (status : r.status = ContractStatus.pending.label)
    (kind : r.errorKind = none) (message : r.errorMessage = none) : r.IsConsistent := by
  constructor <;> simp [status, kind, message, ContractStatus.label]

theorem IsConsistent.back {r : ContractRow} (h : r.IsConsistent) (statuses : List ContractStatus) :
    (r.back statuses).IsConsistent := by
  unfold ContractRow.back
  split
  · exact isConsistent_of_pending rfl rfl rfl
  · exact h

theorem IsConsistent.setOutcome {r : ContractRow} (h : r.IsConsistent)
    {o : IndexOutcome FunctionRow} (ends : o.Ends) : (r.setOutcome o).IsConsistent := by
  have status : o.status.label = ContractStatus.failed.label ↔ o.status = .failed :=
    ⟨ContractStatus.label_injective, congrArg _⟩
  unfold ContractRow.setOutcome
  split
  · exact ⟨ends.kind.trans status.symm, ends.message.trans status.symm, fun _ => rfl⟩
  · exact h

end ContractRow

/-! ## Tables -/

/-- The rules that the tables keep. -/
structure Database.Consistent (db : Database) : Prop where
  /-- No two contracts have one id. -/
  ids : (db.contracts.map ContractRow.id).Nodup
  /-- A contract has one function of a selector at most. -/
  unique : (db.functions.map fun f => (f.contractId, f.selector)).Nodup
  /-- A function belongs to a contract that was indexed, or that waits to be indexed again. -/
  owned : ∀ f ∈ db.functions, ∃ r ∈ db.contracts, f.contractId = some r.id ∧
    (r.status = ContractStatus.indexed.label ∨ r.status = ContractStatus.pending.label)
  /-- A function has the selector of its signature. -/
  selected : ∀ f ∈ db.functions, ∃ s, f.signature = some s ∧ f.selector = some (Abi.selector s)
  rows : ∀ r ∈ db.contracts, r.IsConsistent

namespace Database

theorem consistent_empty (cast : TextCast) : Consistent { cast } := by
  constructor <;> simp

theorem Consistent.storeOne {db : Database} (h : db.Consistent) (c : Contract) :
    (db.storeOne c).Consistent := by
  unfold Database.storeOne
  split
  · exact h
  rename_i absent
  have fresh : c.id ∉ db.contracts.map ContractRow.id :=
    row?_eq_none (Option.not_isSome_iff_eq_none.1 absent)
  refine ⟨?_, h.unique, ?_, h.selected, ?_⟩
  · rw [List.map_append, List.map_singleton, List.nodup_append]
    refine ⟨h.ids, by simp, ?_⟩
    rintro a ha b hb rfl
    exact fresh ((List.mem_singleton.1 hb : a = c.id) ▸ ha)
  · intro f hf
    obtain ⟨r, hr, owner⟩ := h.owned f hf
    exact ⟨r, List.mem_append_left _ hr, owner⟩
  · intro r hr
    rcases List.mem_append.1 hr with old | new
    · exact h.rows r old
    · exact List.mem_singleton.1 new ▸ ContractRow.isConsistent_of_pending rfl rfl rfl

theorem Consistent.reset {db : Database} (h : db.Consistent) (statuses : List ContractStatus) :
    (db.reset statuses).Consistent := by
  refine ⟨?_, h.unique, ?_, h.selected, ?_⟩
  · rw [contracts_reset, List.map_map]
    simpa [Function.comp_def] using h.ids
  · intro f hf
    obtain ⟨r, hr, owner, status⟩ := h.owned f hf
    refine ⟨r.back statuses, List.mem_map_of_mem hr, by simpa using owner, ?_⟩
    unfold ContractRow.back
    split
    · exact .inr rfl
    · exact status
  · intro r hr
    obtain ⟨s, hs, rfl⟩ := List.mem_map.1 hr
    exact (h.rows s hs).back statuses

/-- Recording replaces all functions of one contract by functions of different selectors. -/
theorem Consistent.unique_record {db : Database} (h : db.Consistent) {o : IndexOutcome FunctionRow}
    (sound : o.IsSound) :
    ((db.record o).functions.map fun f => (f.contractId, f.selector)).Nodup := by
  rw [functions_record, List.map_append, List.nodup_append]
  refine ⟨h.unique.sublist (List.filter_sublist.map _), ?_, ?_⟩
  · have selectors :
        ((o.functions.map fun f => (f.contractId, f.selector)).map Prod.snd).Nodup := by
      rw [List.map_map]
      exact sound.distinct
    exact List.Nodup.of_map _ selectors
  · rintro p hp q hq rfl
    obtain ⟨f, hf, rfl⟩ := List.mem_map.1 hp
    obtain ⟨g, hg, same⟩ := List.mem_map.1 hq
    have other : f.contractId ≠ some o.contractId := by simpa using (List.mem_filter.1 hf).2
    exact other ((congrArg Prod.fst same).symm.trans (sound.owned g hg))

theorem Consistent.owned_record {db : Database} (h : db.Consistent) {o : IndexOutcome FunctionRow}
    (sound : o.IsSound) (known : o.contractId ∈ db.contracts.map ContractRow.id) :
    ∀ f ∈ (db.record o).functions, ∃ r ∈ (db.record o).contracts, f.contractId = some r.id ∧
      (r.status = ContractStatus.indexed.label ∨ r.status = ContractStatus.pending.label) := by
  intro f hf
  rcases List.mem_append.1 hf with old | new
  · obtain ⟨mem, other⟩ := List.mem_filter.1 old
    obtain ⟨r, hr, owner, status⟩ := h.owned f mem
    have ne : r.id ≠ o.contractId := by
      rintro same
      rw [owner, same] at other
      simp at other
    exact ⟨r, ContractRow.setOutcome_of_ne ne ▸ List.mem_map_of_mem hr, owner, status⟩
  · obtain ⟨r, hr, same⟩ := List.mem_map.1 known
    have done : o.status = .indexed := by
      rcases sound.done with done | done
      · exact done
      · rw [sound.empty done] at new
        cases new
    refine ⟨r.setOutcome o, List.mem_map_of_mem hr, ?_, ?_⟩
    · rw [sound.owned f new, ContractRow.id_setOutcome, same]
    · rw [ContractRow.setOutcome, if_pos same, done]
      exact .inl rfl

theorem Consistent.record {db : Database} (h : db.Consistent) {o : IndexOutcome FunctionRow}
    (sound : o.IsSound) (known : o.contractId ∈ db.contracts.map ContractRow.id) :
    (db.record o).Consistent := by
  refine ⟨?_, h.unique_record sound, h.owned_record sound known, ?_, ?_⟩
  · rw [contracts_record, List.map_map]
    simpa [Function.comp_def] using h.ids
  · intro f hf
    rcases List.mem_append.1 hf with old | new
    · exact h.selected f (List.mem_filter.1 old).1
    · exact sound.selected f new
  · intro r hr
    obtain ⟨s, hs, rfl⟩ := List.mem_map.1 hr
    exact (h.rows s hs).setOutcome sound.toEnds

theorem mem_ids_of_queue {db : Database} (h : db.IsStored) {c : Contract} (hc : c ∈ db.queue) :
    c.id ∈ db.contracts.map ContractRow.id := by
  obtain ⟨r, hr, rfl⟩ := List.mem_map.1 hc
  have mem := (mem_pending.1 hr).1
  exact (asContract_of_mem h mem).2 ▸ List.mem_map_of_mem mem

theorem Consistent.index {σ : Type} {db : Database} (h : db.Consistent) (stored : db.IsStored)
    (x : Indexer σ) (options : IndexOptions) (s : σ) :
    (x.index options ⟨db, s⟩).2.db.Consistent := by
  have ids (statuses : List ContractStatus) :
      (db.reset statuses).contracts.map ContractRow.id = db.contracts.map ContractRow.id := by
    rw [contracts_reset, List.map_map]
    simp [Function.comp_def]
  -- Recording changes no id, so every contract of the queue keeps its row during the run.
  have both := x.index_preserves options
    (P := fun after => after.Consistent ∧ after.contracts.map ContractRow.id =
      db.contracts.map ContractRow.id)
    stored ⟨h, rfl⟩ (fun statuses => ⟨h.reset statuses, ids statuses⟩) ?_ s
  · exact both.1
  · intro after o c hc gives ⟨consistent, same⟩
    have known := mem_ids_of_queue (stored.reset _) hc
    rw [ids, ← same, ← gives.contractId] at known
    refine ⟨consistent.record gives.isSound known, ?_⟩
    rw [contracts_record, List.map_map, ← same]
    simp [Function.comp_def]

/-- **Every reachable database is consistent**, whatever was loaded and indexed, and however loading
and indexing were stopped. -/
theorem Reachable.consistent {db : Database} (h : Reachable db) : db.Consistent := by
  induction h with
  | empty cast => exact consistent_empty cast
  | load _ options corpus ih =>
    exact load_preserves (Q := fun _ => True) (fun _ c _ kept => kept.storeOne c) ih options
      fun _ _ _ _ => trivial
  | reset _ statuses ih => exact ih.reset statuses
  | index reachable x options s ih => exact ih.index reachable.isStored x options s

end Database

/-! ## A function and a failure -/

/-- An answer with a contract `A` that has one function. -/
def pingAnswer : List (String × Value) :=
  [("contracts", .object [("main.sol", .object [("A", .object [("abi", .list [
    .object [("type", .text "function"), ("name", .text "ping")]])])])])]

theorem plain_pingAnswer : Json.Plain (.object pingAnswer) := by
  refine .single (.single (.single (.single (.list fun v here => ?_))))
  cases List.mem_singleton.1 here
  refine .object (by decide) ?_
  simp only [List.forall_mem_cons, List.not_mem_nil, false_implies, implies_true, and_true]
  exact ⟨.text _, .text _⟩

/-- An indexer whose compiler always writes this answer. -/
def Indexer.answersPing : Indexer Unit where
  tools := Contract.oneBinary
  run := Contract.writesOnly (Json.write (.object pingAnswer))

namespace Contract

/-- The function of a contract `A`. -/
def pingRecord (contractId : String) : FunctionRecord :=
  ⟨contractId, Abi.selector "ping()", "ping()", .text "ping", .nonpayable, .anywhere, .text "A",
    .text "A", .text "main.sol", ""⟩

/-- A contract `A` has the function, and all others are missing in the answer. -/
def outcomeOfPing (c : Contract) : IndexOutcome FunctionRecord :=
  if c.name = some "A" then c.indexedOutcome [pingRecord c.id]
  else c.failedOutcome FailureKind.missingContract.label
    (ExtractionFailure.missingContract c.id (.ofText? c.name)).message

/-- What is extracted from the answer. -/
theorem compiledOutcome?_ping (c : Contract) (attempts : Nat) : ∃ compilation,
    c.compilation.ofAttempt attempts (.ok (.object pingAnswer)) = .ok compilation ∧
      c.compiledOutcome? compilation = some c.outcomeOfPing := by
  refine ⟨_, rfl, ?_⟩
  by_cases named : c.name = some "A"
  · have extracted : Extraction.sortRecords [pingRecord c.id] = [pingRecord c.id] :=
      List.mergeSort_singleton _
    rw [outcomeOfPing, if_pos named, ← extracted, compiledOutcome?, named]
    rfl
  · simp [outcomeOfPing, compiledOutcome?, compilation, Extraction.functions,
      Extraction.functionsBy, Extraction.findPrimary, Extraction.lastRanked,
      ExtractionFailure.kind, Except.mapError, bind, Except.bind, named, Ne.symm named]

theorem index_answersPing (c : Contract) (s : Unit) :
    (c.index Indexer.answersPing.tools Indexer.answersPing.run s).1 = some c.outcomeOfPing := by
  have answered (i : Invocation) :
      (Indexer.answersPing.run i s).1.answer i = .ok (.object pingAnswer) :=
    decodeOutput_write plain_pingAnswer
  have result := runWithRetries_of_answer (answered ⟨"solc", c.compilerInput, .zero false⟩) 1 0
  obtain ⟨compilation, compiled, outcome⟩ := c.compiledOutcome?_ping
    (runWithRetries Indexer.answersPing.run ⟨"solc", c.compilerInput, .zero false⟩ 1 0 s).attempts
  have done : c.compile Indexer.answersPing.tools Indexer.answersPing.run s =
      (.ok compilation, ()) := by
    rw [← compiled, ← result]
    rfl
  rw [index, done]
  exact outcome

end Contract

namespace Database

/-- Both contracts of two folders are taken. -/
theorem exists_taken_twoFolders {name : String}
    (mem : .ofContract .plain (.ofEmptyFolder name) ∈ twoFolders.contracts)
    (storable : (Contract.ofEmptyFolder name).IsStorable) :
    ∃ c ∈ (firstOf none (twoFolders.reset []).pending).map ContractRow.asContract,
      c.name = some name := by
  have read := ContractRow.contract_ofContract .plain storable.named storable.runs
  have kept : (twoFolders.reset []).contracts = twoFolders.contracts := by
    rw [contracts_reset]
    exact List.map_id'' (fun r => if_neg (by simp [isReset])) _
  have pending : .ofContract .plain (.ofEmptyFolder name) ∈ (twoFolders.reset []).pending :=
    mem_pending.2 ⟨kept ▸ mem, rfl⟩
  refine ⟨_, List.mem_map_of_mem pending, ?_⟩
  rw [ContractRow.asContract, read]
  rfl

/-- One of two folders is indexed with a function and the other one fails. -/
theorem consistent_twoFolders_indexed :
    let after := (Indexer.answersPing.index {} ⟨twoFolders, ()⟩).2.db
    after.functions ≠ [] ∧ (∃ r ∈ after.contracts, r.status = ContractStatus.failed.label) ∧
      after.Consistent := by
  have steady : Indexer.answersPing.Steady Contract.outcomeOfPing :=
    ⟨Contract.index_answersPing, fun _ => rfl⟩
  have stored := reachable_twoFolders.isStored
  have valid : ({} : IndexOptions).IsValid := ⟨by decide, by decide, by decide⟩
  obtain ⟨s', run⟩ := index_of_steady stored steady valid ()
  have takes := takes_pending (stored.reset []) steady none ()
  have listed {name : String} (other : name = "A" ∨ name = "B") :
      .ofContract .plain (.ofEmptyFolder name) ∈ twoFolders.contracts := by
    rw [twoFolders_eq]
    obtain rfl | rfl := other <;> simp
  obtain ⟨a, a_taken, a_named⟩ := exists_taken_twoFolders (listed (.inl rfl))
    (RawRecord.contract_isStorable (.emptyFolder "A") _ rfl)
  obtain ⟨b, b_taken, b_named⟩ := exists_taken_twoFolders (listed (.inr rfl))
    (RawRecord.contract_isStorable (.emptyFolder "B") _ rfl)
  refine ⟨?_, ?_, Reachable.consistent (.index reachable_twoFolders _ _ _)⟩
  · rw [run]
    have brought : .ofRecord (twoFolders.reset []).cast (Contract.pingRecord a.id) ∈
        (rowOutcome (twoFolders.reset []).cast Contract.outcomeOfPing a).functions := by
      rw [rowOutcome, Contract.outcomeOfPing, a_named]
      exact List.mem_singleton_self _
    exact List.ne_nil_of_mem (takes.mem_functions a_taken brought)
  · rw [run]
    obtain ⟨r, found, status, -⟩ := takes.row? b_taken
    refine ⟨r, List.mem_of_find?_eq_some found, status.trans ?_⟩
    rw [rowOutcome, Contract.outcomeOfPing, b_named]
    rfl

end Database

end SelectorCatalog
