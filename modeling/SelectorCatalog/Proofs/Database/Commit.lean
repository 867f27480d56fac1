import SelectorCatalog.Proofs.Indexing.Outcome

/-!
# A commit records outcomes one by one

`Database.record` writes one outcome: the function rows of its contract are replaced and its status
is set. The transaction of a chunk first deletes all function rows of the chunk, then inserts all
new ones and sets all statuses last; `Database.commit_cases` says that it either comes to recording
the outcomes one after the other, or changes nothing.
-/

set_option autoImplicit false

namespace SelectorCatalog

namespace ContractRow

/-- The row after an outcome: that of the outcome's contract gets status and error. -/
def setOutcome (o : IndexOutcome FunctionRow) (r : ContractRow) : ContractRow :=
  if r.id = o.contractId then
    { r with
      status := o.status.label
      errorKind := o.errorKind
      errorMessage := o.errorMessage
      wasIndexed := true }
  else r

@[simp] theorem id_setOutcome (o : IndexOutcome FunctionRow) (r : ContractRow) :
    (r.setOutcome o).id = r.id := by
  unfold setOutcome
  split <;> rfl

theorem setOutcome_of_ne {o : IndexOutcome FunctionRow} {r : ContractRow}
    (h : r.id ≠ o.contractId) :
    r.setOutcome o = r := if_neg h

/-- Among rows that do not belong to the outcome's contract nothing changes. -/
theorem filter_setOutcome {o : IndexOutcome FunctionRow} {p : ContractRow → Bool}
    (own : ∀ r : ContractRow, r.id = o.contractId → p (r.setOutcome o) = false)
    (rows : List ContractRow) :
    (rows.map (setOutcome o)).filter p = rows.filter fun r => r.id != o.contractId && p r := by
  have kept : ∀ r : ContractRow, p (r.setOutcome o) = (r.id != o.contractId && p r) := by
    intro r
    by_cases same : r.id = o.contractId
    · simp [own r same, same]
    · simp [setOutcome_of_ne same, same]
  rw [List.filter_map]
  simp only [Function.comp_def, kept]
  rw [List.map_congr_left (g := fun r => r), List.map_id']
  intro r hr
  have other := (List.mem_filter.1 hr).2
  simp only [Bool.and_eq_true, bne_iff_ne] at other
  exact setOutcome_of_ne other.1

end ContractRow

namespace Database

/-- The tables after an outcome: its functions take the place of those of its contract. -/
def record (db : Database) (o : IndexOutcome FunctionRow) : Database :=
  { db with
    contracts := db.contracts.map (ContractRow.setOutcome o)
    functions := db.functions.filter (fun r => r.contractId != some o.contractId) ++ o.functions }

end Database

/-! ## Statements -/

namespace Statement

/-- A transaction that violates no constraint goes through, unless the database breaks down. -/
theorem applyAll_cases {db' : Database} : ∀ (breakdown : Option Nat) {statements : List Statement}
    {db : Database}, applyAll none statements db = .ok db' →
      applyAll breakdown statements db = .ok db' ∨
        applyAll breakdown statements db = .error .breakdown
  | none, _, _, h => .inl h
  | some 0, _, _, _ => .inr (by simp [applyAll])
  | some (n + 1), [], _, h => .inl h
  | some (n + 1), s :: rest, db, h => by
    simp only [applyAll] at h ⊢
    split at h
    · exact applyAll_cases (some n) h
    · cases h

theorem applyAll_append {first second : List Statement} {db db' : Database}
    (h : applyAll none first db = .ok db') :
    applyAll none (first ++ second) db = applyAll none second db' := by
  induction first generalizing db with
  | nil =>
    cases h
    rfl
  | cons s rest ih =>
    simp only [applyAll, List.cons_append] at h ⊢
    split at h
    · exact ih h
    · cases h

theorem applyAll_deletes (ids : List String) (db : Database) :
    applyAll none (ids.map .deleteFunctions) db =
      .ok { db with functions := db.functions.filter fun r => ids.all fun id =>
        r.contractId != some id } := by
  induction ids generalizing db with
  | nil => simp [applyAll]
  | cons id rest ih =>
    simp only [List.map_cons, applyAll, apply, Option.map_none, ih, List.filter_filter,
      List.all_cons, Bool.and_comm]

theorem applyAll_inserts {rows : List FunctionRow} (complete : ∀ r ∈ rows, r.isComplete)
    (db : Database) :
    applyAll none (rows.map .insertFunction) db =
      .ok { db with functions := db.functions ++ rows } := by
  induction rows generalizing db with
  | nil => simp [applyAll]
  | cons r rest ih =>
    have first : r.isComplete = true := complete r List.mem_cons_self
    simp only [List.map_cons, applyAll, apply, first, if_true, Option.map_none,
      ih fun s hs => complete s (List.mem_cons_of_mem _ hs), List.append_assoc,
      List.singleton_append]

theorem applyAll_statuses (outcomes : List (IndexOutcome FunctionRow)) (db : Database) :
    applyAll none (Database.statusStatements outcomes) db =
      .ok { db with
        contracts :=
          outcomes.foldl (fun rows o => rows.map (ContractRow.setOutcome o)) db.contracts } := by
  induction outcomes generalizing db with
  | nil => simp [Database.statusStatements, applyAll]
  | cons o rest ih =>
    simp only [Database.statusStatements] at ih ⊢
    simp only [List.map_cons, applyAll, apply, Option.map_none, ih, List.foldl_cons]
    rfl

end Statement

/-! ## Recording -/

namespace Database

@[simp] theorem contracts_record (db : Database) (o : IndexOutcome FunctionRow) :
    (db.record o).contracts = db.contracts.map (ContractRow.setOutcome o) := rfl

@[simp] theorem functions_record (db : Database) (o : IndexOutcome FunctionRow) :
    (db.record o).functions =
      db.functions.filter (fun r => r.contractId != some o.contractId) ++ o.functions := rfl

@[simp] theorem cast_record (db : Database) (o : IndexOutcome FunctionRow) :
    (db.record o).cast = db.cast :=
  rfl

@[simp] theorem cast_foldl_record (outcomes : List (IndexOutcome FunctionRow)) (db : Database) :
    (outcomes.foldl record db).cast = db.cast := by
  induction outcomes generalizing db with
  | nil => rfl
  | cons o rest ih => exact ih (db.record o)

/-- The rows of outcomes of different contracts do not get in each other's way. -/
theorem foldl_record (outcomes : List (IndexOutcome FunctionRow)) (db : Database)
    (owned : ∀ o ∈ outcomes, ∀ r ∈ o.functions, r.contractId = some o.contractId)
    (distinct : (outcomes.map IndexOutcome.contractId).Nodup) :
    outcomes.foldl record db =
      { db with
        contracts := outcomes.foldl (fun rows o => rows.map (ContractRow.setOutcome o)) db.contracts
        functions := (db.functions.filter fun r =>
            (outcomes.map IndexOutcome.contractId).all fun id => r.contractId != some id) ++
          outcomes.flatMap IndexOutcome.functions } := by
  induction outcomes generalizing db with
  | nil => simp
  | cons o rest ih =>
    have others : ∀ r ∈ o.functions, (rest.map IndexOutcome.contractId).all fun id =>
        r.contractId != some id := by
      intro r hr
      rw [List.all_eq_true]
      intro id hid
      rw [owned o List.mem_cons_self r hr]
      simp only [bne_iff_ne, ne_eq, Option.some.injEq]
      rintro rfl
      exact (List.nodup_cons.1 distinct).1 hid
    rw [List.foldl_cons, ih (db.record o) (fun p hp => owned p (List.mem_cons_of_mem _ hp))
      (List.nodup_cons.1 distinct).2]
    simp only [record, List.filter_append, List.filter_filter, List.filter_eq_self.2 others,
      List.map_cons, List.all_cons, List.flatMap_cons, List.foldl_cons, List.append_assoc,
      Bool.and_comm]

/-! ## What recording leaves -/

theorem row?_record (db : Database) (o : IndexOutcome FunctionRow) (id : String) :
    (db.record o).row? id = (db.row? id).map (ContractRow.setOutcome o) := by
  rw [row?, contracts_record, List.find?_map, row?]
  congr 1
  exact congrArg (List.find? · db.contracts) (funext fun r => by simp)

theorem row?_record_of_ne (db : Database) {o : IndexOutcome FunctionRow} {id : String}
    (other : id ≠ o.contractId) : (db.record o).row? id = db.row? id := by
  rw [row?_record]
  cases found : db.row? id with
  | none => rfl
  | some r =>
    have own : r.id = id := by simpa using List.find?_some found
    rw [Option.map_some, ContractRow.setOutcome_of_ne (own ▸ other)]

theorem row?_foldl_record_of_not_mem {outcomes : List (IndexOutcome FunctionRow)} (db : Database)
    {id : String} (other : id ∉ outcomes.map IndexOutcome.contractId) :
    (outcomes.foldl record db).row? id = db.row? id := by
  induction outcomes generalizing db with
  | nil => rfl
  | cons o rest ih =>
    rw [List.map_cons, List.mem_cons, not_or] at other
    rw [List.foldl_cons, ih (db.record o) other.2, row?_record_of_ne db other.1]

theorem row?_foldl_record {outcomes : List (IndexOutcome FunctionRow)} (db : Database)
    (distinct : (outcomes.map IndexOutcome.contractId).Nodup) {o : IndexOutcome FunctionRow}
    (ho : o ∈ outcomes) :
    (outcomes.foldl record db).row? o.contractId =
      (db.row? o.contractId).map (ContractRow.setOutcome o) := by
  induction outcomes generalizing db with
  | nil => cases ho
  | cons p rest ih =>
    have parts := List.nodup_cons.1 distinct
    rw [List.foldl_cons]
    rcases List.mem_cons.1 ho with rfl | later
    · rw [row?_foldl_record_of_not_mem _ parts.1, row?_record]
    · have other : o.contractId ≠ p.contractId := fun same =>
        parts.1 (same ▸ List.mem_map_of_mem later)
      rw [ih (db.record p) parts.2 later, row?_record_of_ne db other]

/-- **The row of a recorded contract tells its outcome.** -/
theorem exists_row?_foldl_record {outcomes : List (IndexOutcome FunctionRow)} (db : Database)
    (distinct : (outcomes.map IndexOutcome.contractId).Nodup) {o : IndexOutcome FunctionRow}
    (ho : o ∈ outcomes) (known : o.contractId ∈ db.contracts.map ContractRow.id) :
    ∃ r, (outcomes.foldl record db).row? o.contractId = some r ∧ r.status = o.status.label ∧
      r.errorKind = o.errorKind ∧ r.errorMessage = o.errorMessage := by
  cases found : db.row? o.contractId with
  | none =>
    obtain ⟨r, hr, same⟩ := List.mem_map.1 known
    exact absurd same (by simpa using List.find?_eq_none.1 found r hr)
  | some r =>
    have own : r.id = o.contractId := by simpa using List.find?_some found
    refine ⟨r.setOutcome o, by rw [row?_foldl_record db distinct ho, found, Option.map_some], ?_⟩
    rw [ContractRow.setOutcome, if_pos own]
    exact ⟨rfl, rfl, rfl⟩

/-- Rows of other contracts stay as they are. -/
theorem other_contracts_foldl_record {outcomes : List (IndexOutcome FunctionRow)} (db : Database)
    {ids : List String} (sub : ∀ o ∈ outcomes, o.contractId ∈ ids) :
    (outcomes.foldl record db).contracts.filter (fun r => decide (r.id ∉ ids)) =
      db.contracts.filter fun r => decide (r.id ∉ ids) := by
  induction outcomes generalizing db with
  | nil => rfl
  | cons o rest ih =>
    have own : o.contractId ∈ ids := sub o List.mem_cons_self
    rw [List.foldl_cons, ih _ fun p hp => sub p (List.mem_cons_of_mem _ hp), contracts_record,
      ContractRow.filter_setOutcome]
    · apply List.filter_congr
      intro r _
      by_cases same : r.id = o.contractId
      · simp [same, own]
      · simp [same]
    · intro r same
      simp [same, own]

/-- Functions of other contracts stay as they are, and recorded contracts have those of their
outcomes. -/
theorem functions_foldl_record {outcomes : List (IndexOutcome FunctionRow)} (db : Database)
    (owned : ∀ o ∈ outcomes, ∀ r ∈ o.functions, r.contractId = some o.contractId)
    (distinct : (outcomes.map IndexOutcome.contractId).Nodup) :
    let owners := outcomes.map fun o => some o.contractId
    ((outcomes.foldl record db).functions.filter fun r => decide (r.contractId ∉ owners)) =
        db.functions.filter (fun r => decide (r.contractId ∉ owners)) ∧
      ((outcomes.foldl record db).functions.filter fun r => decide (r.contractId ∈ owners)) =
        outcomes.flatMap IndexOutcome.functions := by
  intro owners
  have deleted : (fun r : FunctionRow => (outcomes.map IndexOutcome.contractId).all fun id =>
      r.contractId != some id) = fun r => decide (r.contractId ∉ owners) := by
    funext r
    rw [Bool.eq_iff_iff, decide_eq_true_iff, List.all_eq_true]
    simp only [List.mem_map, bne_iff_ne, ne_eq, forall_exists_index, and_imp, owners, not_exists,
      not_and]
    exact ⟨fun h o ho same => h _ o ho rfl same.symm, fun h _ o ho e same => h o ho (e ▸ same.symm)⟩
  have inserted : ∀ r ∈ outcomes.flatMap IndexOutcome.functions, r.contractId ∈ owners := by
    intro r hr
    obtain ⟨o, ho, mem⟩ := List.mem_flatMap.1 hr
    exact owned o ho r mem ▸ List.mem_map_of_mem ho
  rw [foldl_record outcomes db owned distinct, deleted]
  constructor
  · have none_inserted : (outcomes.flatMap IndexOutcome.functions).filter
        (fun r => decide (r.contractId ∉ owners)) = [] :=
      List.filter_eq_nil_iff.2 fun r hr => by simpa using inserted r hr
    simp only [List.filter_append, List.filter_filter, Bool.and_self, none_inserted,
      List.append_nil]
  · have none_left : (db.functions.filter fun r => decide (r.contractId ∉ owners)).filter
        (fun r => decide (r.contractId ∈ owners)) = [] :=
      List.filter_eq_nil_iff.2 fun r hr => by simpa using (List.mem_filter.1 hr).2
    have all_inserted : (outcomes.flatMap IndexOutcome.functions).filter
        (fun r => decide (r.contractId ∈ owners)) = outcomes.flatMap IndexOutcome.functions :=
      List.filter_eq_self.2 fun r hr => by simpa using inserted r hr
    simp only [List.filter_append, none_left, all_inserted, List.nil_append]

/-! ## Transactions -/

theorem firstOfSelectors_of_nodup {rows : List FunctionRow}
    (distinct : (rows.map FunctionRow.selector).Nodup) : firstOfSelectors rows = rows := by
  induction rows with
  | nil => rfl
  | cons r rest ih =>
    have parts := List.nodup_cons.1 distinct
    rw [firstOfSelectors, ih parts.2, List.filter_eq_self.2]
    intro s hs
    simp only [bne_iff_ne, ne_eq]
    intro same
    exact parts.1 (same ▸ List.mem_map_of_mem hs)

theorem rowsOf_of_isSound {o : IndexOutcome FunctionRow} (h : o.IsSound) :
    rowsOf o = o.functions := by
  unfold rowsOf
  split
  · exact firstOfSelectors_of_nodup h.distinct
  · rename_i notIndexed
    exact (h.empty (h.done.resolve_left notIndexed)).symm

theorem isComplete_of_isSound {o : IndexOutcome FunctionRow} (h : o.IsSound) :
    ∀ r ∈ o.functions, r.isComplete := by
  intro r hr
  obtain ⟨s, signature, selector⟩ := h.selected r hr
  simp [FunctionRow.isComplete, h.owned r hr, signature, selector]

/-- The tables after outcomes: the rows that they bring take the place of those of their
contracts. -/
def committed (db : Database) (outcomes : List (IndexOutcome FunctionRow)) : Database :=
  { db with
    contracts := outcomes.foldl (fun rows o => rows.map (ContractRow.setOutcome o)) db.contracts
    functions := (db.functions.filter fun r =>
        (outcomes.map IndexOutcome.contractId).all fun id => r.contractId != some id) ++
      outcomes.flatMap rowsOf }

/-- **A commit goes through** if no column is missing that a row must have, unless the database
breaks down. -/
theorem commit_of_complete {db : Database} {outcomes : List (IndexOutcome FunctionRow)}
    (complete : ∀ r ∈ outcomes.flatMap rowsOf, r.isComplete) :
    db.commit outcomes none = .ok (db.committed outcomes) := by
  have deletes : (outcomes.map fun o => Statement.deleteFunctions o.contractId) =
      (outcomes.map IndexOutcome.contractId).map .deleteFunctions := by
    rw [List.map_map]
    rfl
  unfold commit
  split
  · rename_i empty
    rw [List.isEmpty_iff.1 empty]
    simp [committed]
  · rw [commitStatements, replaceStatements, deletes, List.append_assoc,
      Statement.applyAll_append (Statement.applyAll_deletes _ db),
      Statement.applyAll_append (Statement.applyAll_inserts complete _),
      Statement.applyAll_statuses]
    rfl

/-- **A commit that does not break down records its outcomes one by one.** -/
theorem commit_none {db : Database} {outcomes : List (IndexOutcome FunctionRow)}
    (sound : ∀ o ∈ outcomes, o.IsSound)
    (distinct : (outcomes.map IndexOutcome.contractId).Nodup) :
    db.commit outcomes none = .ok (outcomes.foldl record db) := by
  have rows : outcomes.flatMap rowsOf = outcomes.flatMap IndexOutcome.functions :=
    List.flatMap_congr fun o ho => rowsOf_of_isSound (sound o ho)
  have complete : ∀ r ∈ outcomes.flatMap rowsOf, r.isComplete := by
    intro r hr
    obtain ⟨o, ho, mem⟩ := List.mem_flatMap.1 (rows ▸ hr)
    exact isComplete_of_isSound (sound o ho) r mem
  rw [commit_of_complete complete, committed, rows,
    foldl_record outcomes db (fun o ho => (sound o ho).owned) distinct]

/-- A commit that goes through without a breakdown comes to the same tables with one, or to none. -/
theorem commit_cases_of_none {db after : Database} {outcomes : List (IndexOutcome FunctionRow)}
    (whole : db.commit outcomes none = .ok after) (breakdown : Option Nat) :
    db.commit outcomes breakdown = .ok after ∨ db.commit outcomes breakdown =
      .error .breakdown := by
  unfold commit at whole ⊢
  split
  · rename_i empty
    rw [if_pos empty] at whole
    exact .inl whole
  · rename_i some_outcome
    rw [if_neg some_outcome] at whole
    exact Statement.applyAll_cases breakdown whole

/-- **A commit is atomic**: it records all outcomes, or the database breaks down and gives no
tables. -/
theorem commit_cases (db : Database) {outcomes : List (IndexOutcome FunctionRow)}
    (sound : ∀ o ∈ outcomes, o.IsSound)
    (distinct : (outcomes.map IndexOutcome.contractId).Nodup) (breakdown : Option Nat) :
    db.commit outcomes breakdown = .ok (outcomes.foldl record db) ∨
      db.commit outcomes breakdown = .error .breakdown :=
  commit_cases_of_none (commit_none sound distinct) breakdown

end Database

end SelectorCatalog
