import SelectorCatalog.Proofs.Corpus.Storable
import SelectorCatalog.Proofs.Database.Commit

/-!
# What every table of contracts has

No two rows have one id, no id is empty, and every row is read back as a contract
(`Database.IsStored`). Loading a corpus keeps this because the contracts of a corpus are storable;
moving contracts back to pending and recording outcomes keep it because they touch no column of the
contract.
-/

set_option autoImplicit false

namespace SelectorCatalog

/-- The rows of contracts are told apart by their ids and can be read back. -/
structure Database.IsStored (db : Database) : Prop where
  distinct : (db.contracts.map ContractRow.id).Nodup
  named : ∀ r ∈ db.contracts, r.id ≠ ""
  readable : ∀ r ∈ db.contracts, ∃ c, r.contract = .ok c

/-! ## Rows -/

namespace ContractRow

theorem contract_id {r : ContractRow} {c : Contract} (named : r.id ≠ "") (h : r.contract = .ok c) :
    c.id = r.id := by
  have yields : Yields r.contract fun c => c.id = r.id := by
    unfold contract
    iterate 5 refine .skip fun _ => ?_
    rw [Contract.withId, if_neg (by simpa using named)]
    exact .ok rfl
  exact yields c h

@[simp] theorem contract_setOutcome (o : IndexOutcome FunctionRow) (r : ContractRow) :
    (r.setOutcome o).contract = r.contract := by
  unfold setOutcome
  split <;> rfl

/-- The row back at pending, if it has one of the statuses. -/
def back (statuses : List ContractStatus) (r : ContractRow) : ContractRow :=
  if Database.isReset statuses r then
    { r with status := ContractStatus.pending.label, errorKind := none, errorMessage := none }
  else r

@[simp] theorem id_back (statuses : List ContractStatus) (r : ContractRow) :
    (r.back statuses).id = r.id := by
  unfold back
  split <;> rfl

@[simp] theorem contract_back (statuses : List ContractStatus) (r : ContractRow) :
    (r.back statuses).contract = r.contract := by
  unfold back
  split <;> rfl

/-- A change of rows that leaves each id as it is leaves the ids of all rows as they are. -/
theorem ids_map {f : ContractRow → ContractRow} (id : ∀ r, (f r).id = r.id)
    (rows : List ContractRow) :
    (rows.map f).map ContractRow.id = rows.map ContractRow.id := by
  rw [List.map_map]
  exact List.map_congr_left fun r _ => id r

end ContractRow

/-! ## What keeps the rows -/

namespace Database

theorem contracts_reset (db : Database) (statuses : List ContractStatus) :
    (db.reset statuses).contracts = db.contracts.map (ContractRow.back statuses) := rfl

theorem isStored_empty (cast : TextCast) : IsStored { cast } := by
  constructor <;> simp

/-- A change of rows that leaves ids and contracts as they are. -/
theorem IsStored.map {db db' : Database} (h : db.IsStored) {f : ContractRow → ContractRow}
    (rows : db'.contracts = db.contracts.map f) (id : ∀ r, (f r).id = r.id)
    (contract : ∀ r, (f r).contract = r.contract) : db'.IsStored := by
  refine ⟨?_, ?_, ?_⟩
  · rw [rows, ContractRow.ids_map id]
    exact h.distinct
  · intro r hr
    rw [rows] at hr
    obtain ⟨s, hs, rfl⟩ := List.mem_map.1 hr
    exact id s ▸ h.named s hs
  · intro r hr
    rw [rows] at hr
    obtain ⟨s, hs, rfl⟩ := List.mem_map.1 hr
    exact contract s ▸ h.readable s hs

theorem IsStored.record {db : Database} (h : db.IsStored) (o : IndexOutcome FunctionRow) :
    (db.record o).IsStored :=
  h.map rfl (ContractRow.id_setOutcome o) (ContractRow.contract_setOutcome o)

theorem IsStored.foldl_record {db : Database} (h : db.IsStored)
    (outcomes : List (IndexOutcome FunctionRow)) :
    (outcomes.foldl Database.record db).IsStored := by
  induction outcomes generalizing db with
  | nil => exact h
  | cons o rest ih => exact ih (h.record o)

theorem IsStored.reset {db : Database} (h : db.IsStored) (statuses : List ContractStatus) :
    (db.reset statuses).IsStored :=
  h.map rfl (ContractRow.id_back statuses) (ContractRow.contract_back statuses)

theorem row?_eq_none {db : Database} {id : String} (h : db.row? id = none) :
    id ∉ db.contracts.map ContractRow.id := by
  intro mem
  obtain ⟨r, hr, rfl⟩ := List.mem_map.1 mem
  simpa using List.find?_eq_none.1 h r hr

/-- Storing a contract gives no id a second row. -/
theorem distinct_storeOne {db : Database} (distinct : (db.contracts.map ContractRow.id).Nodup)
    (c : Contract) :
    ((db.storeOne c).contracts.map ContractRow.id).Nodup := by
  unfold Database.storeOne
  split
  · exact distinct
  · rename_i absent
    have fresh : c.id ∉ db.contracts.map ContractRow.id :=
      row?_eq_none (Option.not_isSome_iff_eq_none.1 absent)
    rw [List.map_append, List.map_singleton, List.nodup_append]
    refine ⟨distinct, by simp, ?_⟩
    rintro a ha b hb rfl
    exact fresh ((List.mem_singleton.1 hb : a = c.id) ▸ ha)

theorem mem_storeOne {db : Database} {c : Contract} {r : ContractRow}
    (h : r ∈ (db.storeOne c).contracts) :
    r ∈ db.contracts ∨ r = .ofContract db.cast c := by
  unfold Database.storeOne at h
  split at h
  · exact .inl h
  · exact (List.mem_append.1 h).imp_right List.mem_singleton.1

theorem IsStored.storeOne {db : Database} (h : db.IsStored) {c : Contract}
    (storable : c.IsStorable) :
    (db.storeOne c).IsStored := by
  refine ⟨distinct_storeOne h.distinct c, fun r hr => ?_, fun r hr => ?_⟩
  · rcases mem_storeOne hr with old | rfl
    · exact h.named r old
    · exact storable.named
  · rcases mem_storeOne hr with old | rfl
    · exact h.readable r old
    · exact ⟨c.asStored db.cast, ContractRow.contract_ofContract _ storable.named storable.runs⟩

end Database

/-! ## Loading -/

namespace LoadState

/-- What holds while a corpus is loaded: a property of the tables, and one of all that waits. -/
structure Keeps (P : Database → Prop) (Q : Contract → Prop) (s : LoadState) : Prop where
  tables : P s.db
  waiting : ∀ c ∈ s.waiting, Q c

variable {P : Database → Prop} {Q : Contract → Prop} (one : ∀ db c, Q c → P db → P (db.storeOne c))

include one

theorem store_keeps {cs : List Contract} (each : ∀ c ∈ cs, Q c) {db : Database} (h : P db) :
    P (db.store cs) := by
  unfold Database.store
  induction cs generalizing db with
  | nil => exact h
  | cons c rest ih =>
    exact ih (fun d hd => each d (List.mem_cons_of_mem _ hd))
      (one db c (each c List.mem_cons_self) h)

theorem Keeps.flush {s : LoadState} (h : s.Keeps P Q) : s.flush.Keeps P Q where
  tables := store_keeps one h.waiting h.tables
  waiting := fun _ hc => absurd hc List.not_mem_nil

theorem Keeps.take {s : LoadState} (h : s.Keeps P Q) (chunk : Nat) {c : Contract} (sound : Q c) :
    (s.take chunk c).Keeps P Q := by
  have waiting : ({ s with waiting := s.waiting ++ [c] } : LoadState).Keeps P Q := by
    refine ⟨h.tables, fun d hd => ?_⟩
    rcases List.mem_append.1 hd with old | new
    · exact h.waiting d old
    · exact List.mem_singleton.1 new ▸ sound
  unfold LoadState.take flushFull
  split
  · exact waiting
  · exact waiting.flush one

theorem Keeps.takeAll (chunk : Nat) (ignoreErrors : Bool) : ∀ {records : List RawRecord},
    (∀ r ∈ records, Yields r.contract Q) → ∀ {s : LoadState}, s.Keeps P Q →
      (LoadState.takeAll chunk ignoreErrors records s).2.Keeps P Q
  | [], _, _, h => h
  | r :: rest, each, s, h => by
    have ⟨first, others⟩ := List.forall_mem_cons.1 each
    have seen : s.see.Keeps P Q := ⟨h.tables, h.waiting⟩
    rw [LoadState.takeAll]
    split
    · rename_i c read
      exact takeAll chunk ignoreErrors others (seen.take one chunk (first c read))
    · split
      · exact takeAll chunk ignoreErrors others ⟨seen.tables, seen.waiting⟩
      · exact ⟨seen.tables, seen.waiting⟩

end LoadState

namespace Database

/-- **What storing one contract preserves, loading a corpus preserves**, however it ends. -/
theorem load_preserves {P : Database → Prop} {Q : Contract → Prop}
    (one : ∀ db c, Q c → P db → P (db.storeOne c)) {db : Database} (h : P db)
    (options : LoadOptions) {corpus : CorpusStream}
    (each : ∀ r ∈ corpus.records, Yields r.contract Q) :
    P (db.load options corpus).2 := by
  have all := LoadState.Keeps.takeAll one options.chunkSize.toNat options.ignoreErrors each
    (s := ⟨[], {}, db⟩) ⟨h, fun _ hc => absurd hc List.not_mem_nil⟩
  unfold load
  split
  · exact h
  split
  · rename_i ended
    rw [ended] at all
    exact all.tables
  · rename_i ended
    rw [ended] at all
    split
    · exact all.tables
    · exact (all.flush one).tables

theorem IsStored.load {db : Database} (h : db.IsStored) (options : LoadOptions)
    (corpus : CorpusStream) :
    (db.load options corpus).2.IsStored :=
  load_preserves (fun _ _ storable stored => stored.storeOne storable) h options
    fun r _ => RawRecord.contract_isStorable r

/-- **A row that loading adds is that of a record's contract.** -/
theorem exists_record_of_load (db : Database) (options : LoadOptions) (corpus : CorpusStream) :
    ∀ row ∈ (db.load options corpus).2.contracts,
      row ∈ db.contracts ∨
        ∃ r ∈ corpus.records, ∃ c, r.contract = .ok c ∧ row = .ofContract db.cast c := by
  refine (load_preserves (P := fun after => after.cast = db.cast ∧ ∀ row ∈ after.contracts,
      row ∈ db.contracts ∨ ∃ r ∈ corpus.records, ∃ c, r.contract = .ok c ∧
        row = .ofContract db.cast c)
    (Q := fun c => ∃ r ∈ corpus.records, r.contract = .ok c) ?_ ⟨rfl, fun _ => .inl⟩ options
    fun r mem c read => ⟨r, mem, read⟩).2
  rintro after c ⟨r, mem, read⟩ ⟨cast, kept⟩
  refine ⟨(after.cast_storeOne c).trans cast, fun row there => ?_⟩
  unfold storeOne at there
  split at there
  · exact kept row there
  · rcases List.mem_append.1 there with old | new
    · exact kept row old
    · exact .inr ⟨r, mem, c, read, cast ▸ List.mem_singleton.1 new⟩

end Database

end SelectorCatalog
