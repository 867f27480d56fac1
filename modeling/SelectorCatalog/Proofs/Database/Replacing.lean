import SelectorCatalog.Proofs.Database.Commit

/-!
# A commit replaces what belongs to its contracts

A commit of outcomes of different contracts goes through exactly if no row lacks a column that it
must have and the database breaks down neither before a statement nor before the end
(`Database.commit_fails_iff`). Then every contract of the outcomes has the rows and the status that
its outcome brings, whatever was there before, and no other row is touched (`Database.Replaces`).
The order of the outcomes does not count.

`Transaction` tells a commit statement by statement: the statements write to working tables, which
take the place of the tables that are kept when the last one is done. `Transaction.run_eq` says that
this comes to `Statement.applyAll`, so a commit that fails leaves the tables as they were, whatever
it had already written (`Database.commit_replaces`).
-/

set_option autoImplicit false

namespace SelectorCatalog

/-! ## Statements that fail -/

namespace Statement

/-- Whether a statement violates a constraint: it inserts a row without a column that a row must
have. -/
def violates : Statement → Bool
  | insertFunction row => !row.isComplete
  | _ => false

theorem apply_eq_none_iff {s : Statement} {db : Database} :
    s.apply db = none ↔ s.violates = true := by
  cases s <;> simp [apply, violates]

theorem applyAll_zero (statements : List Statement) (db : Database) :
    applyAll (some 0) statements db = .error .breakdown := by
  simp [applyAll]

theorem applyAll_cons {breakdown : Option Nat} (unbroken : breakdown ≠ some 0) (s : Statement)
    (rest : List Statement) (db : Database) :
    applyAll breakdown (s :: rest) db = match s.apply db with
      | some after => applyAll (breakdown.map (· - 1)) rest after
      | none => .error .constraint := by
  match breakdown with
  | none => rfl
  | some 0 => exact absurd rfl unbroken
  | some (k + 1) => rfl

/-- **Statements fail exactly if one of them violates a constraint, or if the database breaks down**
before one of them or before the end. -/
theorem applyAll_fails_iff {breakdown : Option Nat} {statements : List Statement} {db : Database} :
    (∃ failure, applyAll breakdown statements db = .error failure) ↔
      (∃ s ∈ statements, s.violates = true) ∨ ∃ k ≤ statements.length, breakdown = some k := by
  induction statements generalizing breakdown db with
  | nil =>
    match breakdown with
    | none => simp [applyAll]
    | some 0 => simp [applyAll]
    | some (k + 1) => simp [applyAll]
  | cons s rest ih =>
    by_cases broken : breakdown = some 0
    · subst broken
      exact iff_of_true ⟨_, applyAll_zero _ _⟩ (.inr ⟨0, Nat.zero_le _, rfl⟩)
    rw [applyAll_cons broken]
    cases result : s.apply db with
    | none => exact iff_of_true ⟨_, rfl⟩ (.inl ⟨s, List.mem_cons_self, apply_eq_none_iff.1 result⟩)
    | some after =>
      have keeps : ¬s.violates = true := by
        rw [← apply_eq_none_iff, result]
        simp
      -- One statement is done, so one fewer stands before the breakdown.
      have later : (∃ k ≤ (s :: rest).length, breakdown = some k) ↔
          ∃ k ≤ rest.length, breakdown.map (· - 1) = some k := by
        cases breakdown with
        | none => simp
        | some k =>
          have positive : k ≠ 0 := fun zero => broken (zero ▸ rfl)
          simp
      rw [later, List.exists_mem_cons_iff, or_iff_right keeps]
      exact ih

end Statement

/-! ## Transactions -/

/-- The tables while a transaction is open. -/
structure Transaction where
  /-- The tables without what the transaction has written. -/
  kept : Database
  /-- The tables that its statements read and write. -/
  working : Database

namespace Transaction

/-- A transaction that has written nothing. -/
def opened (db : Database) : Transaction := ⟨db, db⟩

/-- Executes statements in order, up to the first failure. -/
def execute : Option Nat → List Statement → Transaction → Option StorageFailure × Transaction
  | some 0, _, t => (some .breakdown, t)
  | _, [], t => (none, t)
  | breakdown, s :: rest, t => match s.apply t.working with
    | some working => execute (breakdown.map (· - 1)) rest { t with working }
    | none => (some .constraint, t)

/-- Ends a transaction: what it has written is kept, unless something failed. -/
def close : Option StorageFailure × Transaction → Option StorageFailure × Database
  | (none, t) => (none, t.working)
  | (some failure, t) => (some failure, t.kept)

/-- What statements come to in one transaction: the failure, if there is one, and the tables. -/
def run (breakdown : Option Nat) (statements : List Statement) (db : Database) :
    Option StorageFailure × Database :=
  close (execute breakdown statements (opened db))

/-- However far the statements of an open transaction come, what is kept is all that they write or
what was there before. -/
theorem close_execute (breakdown : Option Nat) (statements : List Statement) (t : Transaction) :
    close (execute breakdown statements t) =
      match Statement.applyAll breakdown statements t.working with
      | .ok after => (none, after)
      | .error failure => (some failure, t.kept) := by
  fun_induction execute breakdown statements t with
  | case1 statements t => rw [Statement.applyAll_zero, close]
  | case2 breakdown t unbroken =>
    match breakdown with
    | none => rfl
    | some (k + 1) => rfl
  | case3 breakdown t s rest unbroken working written ih =>
    rw [Statement.applyAll_cons unbroken, written]
    exact ih
  | case4 breakdown t s rest unbroken refused =>
    rw [Statement.applyAll_cons unbroken, refused, close]

/-- **A transaction writes all or nothing.** -/
theorem run_eq (breakdown : Option Nat) (statements : List Statement) (db : Database) :
    run breakdown statements db = match Statement.applyAll breakdown statements db with
      | .ok after => (none, after)
      | .error failure => (some failure, db) :=
  close_execute breakdown statements (opened db)

end Transaction

namespace Database

theorem exists_violates_iff {outcomes : List (IndexOutcome FunctionRow)} :
    (∃ s ∈ commitStatements outcomes, s.violates = true) ↔
      ∃ o ∈ outcomes, ∃ r ∈ rowsOf o, r.isComplete = false := by
  simp only [commitStatements, replaceStatements, statusStatements, List.mem_append, List.mem_map,
    List.mem_flatMap]
  constructor
  · rintro ⟨s, (⟨o, -, rfl⟩ | ⟨r, ⟨o, mem, row⟩, rfl⟩) | ⟨o, -, rfl⟩, violates⟩
    · cases violates
    · exact ⟨o, mem, r, row, by simpa [Statement.violates] using violates⟩
    · cases violates
  · rintro ⟨o, mem, r, row, lacking⟩
    exact ⟨.insertFunction r, .inl (.inr ⟨r, ⟨o, mem, row⟩, rfl⟩),
      by simpa [Statement.violates] using lacking⟩

/-- **A commit fails exactly if a row lacks a column that it must have, or if the database breaks
down** before a statement or before the end. Without an outcome there is nothing to fail. -/
theorem commit_fails_iff {db : Database} {outcomes : List (IndexOutcome FunctionRow)}
    {breakdown : Option Nat} :
    (∃ failure, db.commit outcomes breakdown = .error failure) ↔
      outcomes ≠ [] ∧ ((∃ o ∈ outcomes, ∃ r ∈ rowsOf o, r.isComplete = false) ∨
        ∃ k ≤ (commitStatements outcomes).length, breakdown = some k) := by
  unfold commit
  split
  · rename_i empty
    simp [List.isEmpty_iff.1 empty]
  · rename_i some_outcome
    rw [Statement.applyAll_fails_iff, exists_violates_iff, and_iff_right]
    exact fun empty => some_outcome (List.isEmpty_iff.2 empty)

theorem complete_of_commit {db after : Database} {outcomes : List (IndexOutcome FunctionRow)}
    {breakdown : Option Nat} (through : db.commit outcomes breakdown = .ok after) :
    ∀ r ∈ outcomes.flatMap rowsOf, r.isComplete := by
  intro r hr
  obtain ⟨o, mem, row⟩ := List.mem_flatMap.1 hr
  cases complete : r.isComplete with
  | true => rfl
  | false =>
    obtain ⟨failure, fails⟩ := commit_fails_iff.2 ⟨List.ne_nil_of_mem mem,
      .inl ⟨o, mem, r, row, complete⟩⟩
    rw [fails] at through
    cases through

/-- What a commit that goes through comes to. -/
theorem eq_committed {db after : Database} {outcomes : List (IndexOutcome FunctionRow)}
    {breakdown : Option Nat} (through : db.commit outcomes breakdown = .ok after) :
    after = db.committed outcomes := by
  have whole : db.commit outcomes none = .ok (db.committed outcomes) :=
    commit_of_complete (complete_of_commit through)
  rcases commit_cases_of_none whole breakdown with same | fails
  · rw [same] at through
    cases through
    rfl
  · rw [fails] at through
    cases through

/-! ## Rows of functions -/

theorem mem_of_mem_firstOfSelectors {rows : List FunctionRow} {r : FunctionRow}
    (h : r ∈ firstOfSelectors rows) : r ∈ rows := by
  induction rows with
  | nil => exact h
  | cons s rest ih =>
    rcases List.mem_cons.1 h with rfl | later
    · exact List.mem_cons_self
    · exact List.mem_cons_of_mem _ (ih (List.mem_filter.1 later).1)

theorem mem_of_mem_rowsOf {o : IndexOutcome FunctionRow} {r : FunctionRow} (h : r ∈ rowsOf o) :
    r ∈ o.functions := by
  unfold rowsOf at h
  split at h
  · exact mem_of_mem_firstOfSelectors h
  · cases h

/-- Of the rows of one selector the first one is kept. -/
theorem filter_firstOfSelectors (rows : List FunctionRow) (selector : Option String) :
    (firstOfSelectors rows).filter (fun r => r.selector = selector) =
      (rows.find? fun r => r.selector = selector).toList := by
  induction rows with
  | nil => rfl
  | cons r rest ih =>
    by_cases own : r.selector = selector
    · subst own
      have none_left : ((firstOfSelectors rest).filter fun s => s.selector != r.selector).filter
          (fun s => s.selector = r.selector) = [] := by
        simp [List.filter_filter, List.filter_eq_nil_iff]
      simp [firstOfSelectors, none_left]
    · have all_left : ((firstOfSelectors rest).filter fun s => s.selector != r.selector).filter
          (fun s => s.selector = selector) = (firstOfSelectors rest).filter fun s =>
            s.selector = selector := by
        rw [List.filter_filter]
        refine List.filter_congr fun s _ => ?_
        by_cases same : s.selector = selector
        · simp [same, Ne.symm own]
        · simp [same]
      simp [firstOfSelectors, own, all_left, ih]

section Owned

variable {outcomes : List (IndexOutcome FunctionRow)}

/-- Outcomes of other contracts bring no row of a contract. -/
theorem filter_rowsOf_eq_nil
    (owned : ∀ o ∈ outcomes, ∀ r ∈ o.functions, r.contractId = some o.contractId) {id : String}
    (others : ∀ o ∈ outcomes, o.contractId ≠ id) :
    (outcomes.flatMap rowsOf).filter (fun r => r.contractId = some id) = [] := by
  rw [List.filter_eq_nil_iff]
  intro r hr
  obtain ⟨o, mem, row⟩ := List.mem_flatMap.1 hr
  simp [owned o mem r (mem_of_mem_rowsOf row), others o mem]

/-- **A contract of the outcomes has the rows that its outcome brings, and no others.** -/
theorem functionRows_committed (db : Database)
    (distinct : (outcomes.map IndexOutcome.contractId).Nodup)
    (owned : ∀ o ∈ outcomes, ∀ r ∈ o.functions, r.contractId = some o.contractId)
    {o : IndexOutcome FunctionRow} (mem : o ∈ outcomes) :
    (db.committed outcomes).functionRows o.contractId = rowsOf o := by
  have none_left : (db.functions.filter fun r =>
      (outcomes.map IndexOutcome.contractId).all fun id => r.contractId != some id).filter
        (fun r => r.contractId = some o.contractId) = [] := by
    rw [List.filter_eq_nil_iff]
    intro r left own
    have other := List.all_eq_true.1 (List.mem_filter.1 left).2 _ (List.mem_map_of_mem mem)
    simp_all
  have all_own : (rowsOf o).filter (fun r => r.contractId = some o.contractId) = rowsOf o :=
    List.filter_eq_self.2 fun r row => by simp [owned o mem r (mem_of_mem_rowsOf row)]
  rw [functionRows, committed, List.filter_append, none_left, List.nil_append]
  -- The other outcomes, before and after this one, are of other contracts.
  obtain ⟨before, later, rfl⟩ := List.append_of_mem mem
  rw [List.map_append, List.map_cons, List.nodup_append] at distinct
  have other_before : ∀ p ∈ before, p.contractId ≠ o.contractId := fun p hp =>
    distinct.2.2 _ (List.mem_map_of_mem hp) _ List.mem_cons_self
  have other_later : ∀ p ∈ later, p.contractId ≠ o.contractId := fun p hp same =>
    (List.nodup_cons.1 distinct.2.1).1 (same ▸ List.mem_map_of_mem hp)
  rw [List.flatMap_append, List.flatMap_cons, List.filter_append, List.filter_append, all_own,
    filter_rowsOf_eq_nil (fun p hp => owned p (List.mem_append_left _ hp)) other_before,
    filter_rowsOf_eq_nil (fun p hp => owned p (by simp [hp])) other_later, List.nil_append,
    List.append_nil]

end Owned

/-- Rows of other contracts stay. -/
theorem filter_committed (db : Database) {outcomes : List (IndexOutcome FunctionRow)}
    (owned : ∀ o ∈ outcomes, ∀ r ∈ o.functions, r.contractId = some o.contractId) :
    (db.committed outcomes).functions.filter (fun r => outcomes.all fun o => r.contractId !=
      some o.contractId) =
      db.functions.filter fun r => outcomes.all fun o => r.contractId != some o.contractId := by
  have none_brought : (outcomes.flatMap rowsOf).filter
      (fun r => outcomes.all fun o => r.contractId != some o.contractId) = [] := by
    rw [List.filter_eq_nil_iff]
    intro r hr others
    obtain ⟨o, mem, row⟩ := List.mem_flatMap.1 hr
    have other := List.all_eq_true.1 others o mem
    simp [owned o mem r (mem_of_mem_rowsOf row)] at other
  simp only [committed, List.all_map, Function.comp_def, List.filter_append, none_brought,
    List.append_nil, List.filter_filter, Bool.and_self]

/-! ## Rows of contracts -/

/-- The row of a contract after outcomes in order. -/
def setAll (outcomes : List (IndexOutcome FunctionRow)) (r : ContractRow) : ContractRow :=
  outcomes.foldl (fun r o => r.setOutcome o) r

@[simp] theorem id_setAll (outcomes : List (IndexOutcome FunctionRow)) (r : ContractRow) :
    (setAll outcomes r).id = r.id := by
  induction outcomes generalizing r with
  | nil => rfl
  | cons o rest ih => exact (ih (r.setOutcome o)).trans (ContractRow.id_setOutcome o r)

theorem contracts_committed (db : Database) (outcomes : List (IndexOutcome FunctionRow)) :
    (db.committed outcomes).contracts = db.contracts.map (setAll outcomes) := by
  show outcomes.foldl (fun rows o => rows.map (ContractRow.setOutcome o)) db.contracts = _
  generalize db.contracts = rows
  induction outcomes generalizing rows with
  | nil => exact (List.map_id' rows).symm
  | cons o rest ih =>
    rw [List.foldl_cons, ih, List.map_map]
    rfl

theorem setAll_of_forall_ne {outcomes : List (IndexOutcome FunctionRow)} {r : ContractRow}
    (others : ∀ o ∈ outcomes, r.id ≠ o.contractId) : setAll outcomes r = r := by
  induction outcomes with
  | nil => rfl
  | cons o rest ih =>
    rw [setAll, List.foldl_cons, ContractRow.setOutcome_of_ne (others o List.mem_cons_self)]
    exact ih fun p hp => others p (List.mem_cons_of_mem _ hp)

/-- Of outcomes of different contracts only one counts for a row. -/
theorem setAll_of_mem {outcomes : List (IndexOutcome FunctionRow)}
    (distinct : (outcomes.map IndexOutcome.contractId).Nodup) {o : IndexOutcome FunctionRow}
    (mem : o ∈ outcomes) {r : ContractRow} (own : r.id = o.contractId) :
    setAll outcomes r = r.setOutcome o := by
  induction outcomes with
  | nil => cases mem
  | cons p rest ih =>
    have parts := List.nodup_cons.1 distinct
    rcases List.mem_cons.1 mem with rfl | later
    · have others : ∀ p ∈ rest, (r.setOutcome o).id ≠ p.contractId := fun p hp same =>
        parts.1 (List.mem_map.2 ⟨p, hp, by rw [← same, ContractRow.id_setOutcome, own]⟩)
      rw [setAll, List.foldl_cons]
      exact setAll_of_forall_ne others
    · have other : r.id ≠ p.contractId := fun same =>
        parts.1 (List.mem_map.2 ⟨o, later, own.symm.trans same⟩)
      rw [setAll, List.foldl_cons, ContractRow.setOutcome_of_ne other]
      exact ih parts.2 later

/-! ## Replacing -/

/-- The tables `after` outcomes: their contracts have what the outcomes bring, and nothing else has
changed. -/
structure Replaces (db : Database) (outcomes : List (IndexOutcome FunctionRow))
    (after : Database) : Prop where
  /-- No row of a contract comes, goes or moves; it gets status and error of the outcome that names
  it. -/
  contracts : List.Forall₂
    (fun r s : ContractRow =>
      (∀ o ∈ outcomes, r.id = o.contractId → s = { r with
        status := o.status.label
        errorKind := o.errorKind
        errorMessage := o.errorMessage
        wasIndexed := true }) ∧
      ((∀ o ∈ outcomes, r.id ≠ o.contractId) → s = r))
    db.contracts after.contracts
  /-- An indexed contract has one row for each selector of its list, the first with this
  selector. -/
  indexed : ∀ o ∈ outcomes, o.status = .indexed → ∀ selector,
    ((after.functionRows o.contractId).filter fun r => r.selector = selector) =
      (o.functions.find? fun r => r.selector = selector).toList
  /-- A contract that was not indexed has no rows, even if the outcome carries some. -/
  not_indexed : ∀ o ∈ outcomes, o.status ≠ .indexed → after.functionRows o.contractId = []
  /-- All rows of functions that no outcome owns stay. -/
  others : (after.functions.filter fun r => outcomes.all fun o =>
    r.contractId != some o.contractId) =
    db.functions.filter fun r => outcomes.all fun o => r.contractId != some o.contractId
  columns : after.columns = db.columns

theorem replaces_committed (db : Database) {outcomes : List (IndexOutcome FunctionRow)}
    (distinct : (outcomes.map IndexOutcome.contractId).Nodup)
    (owned : ∀ o ∈ outcomes, ∀ r ∈ o.functions, r.contractId = some o.contractId) :
    db.Replaces outcomes (db.committed outcomes) where
  contracts := by
    rw [contracts_committed, List.forall₂_map_right_iff, List.forall₂_same]
    intro r _
    refine ⟨fun o mem own => ?_, setAll_of_forall_ne⟩
    rw [setAll_of_mem distinct mem own, ContractRow.setOutcome, if_pos own]
  indexed := by
    intro o mem indexed selector
    rw [functionRows_committed db distinct owned mem, rowsOf, if_pos indexed]
    exact filter_firstOfSelectors o.functions selector
  not_indexed := by
    intro o mem notIndexed
    rw [functionRows_committed db distinct owned mem, rowsOf, if_neg notIndexed]
  others := filter_committed db owned
  columns := rfl

/-! ## The order of the outcomes -/

/-- Two tables that hold the same rows, those of each contract in the same order. -/
structure Alike (a b : Database) : Prop where
  contracts : a.contracts = b.contracts
  functions : a.functions.Perm b.functions
  functionRows : ∀ id, a.functionRows id = b.functionRows id
  columns : a.columns = b.columns

theorem functionRows_committed_of_forall_ne (db : Database)
    {outcomes : List (IndexOutcome FunctionRow)}
    (owned : ∀ o ∈ outcomes, ∀ r ∈ o.functions, r.contractId = some o.contractId) {id : String}
    (others : ∀ o ∈ outcomes, o.contractId ≠ id) :
    (db.committed outcomes).functionRows id = db.functionRows id := by
  rw [functionRows, committed, List.filter_append, filter_rowsOf_eq_nil owned others,
    List.append_nil, List.filter_filter, functionRows]
  refine List.filter_congr fun r _ => ?_
  by_cases own : r.contractId = some id
  · have kept : ∀ o ∈ outcomes, ¬id = o.contractId := fun o mem same => others o mem same.symm
    simpa [own] using kept
  · simp [own]

theorem alike_committed (db : Database) {outcomes other : List (IndexOutcome FunctionRow)}
    (reordered : other.Perm outcomes) (distinct : (outcomes.map IndexOutcome.contractId).Nodup)
    (owned : ∀ o ∈ outcomes, ∀ r ∈ o.functions, r.contractId = some o.contractId) :
    Alike (db.committed other) (db.committed outcomes) := by
  have distinct' : (other.map IndexOutcome.contractId).Nodup :=
    ((reordered.map IndexOutcome.contractId).nodup_iff).2 distinct
  have owned' : ∀ o ∈ other, ∀ r ∈ o.functions, r.contractId = some o.contractId :=
    fun o mem => owned o (reordered.mem_iff.1 mem)
  refine ⟨?contracts, ?functions, ?functionRows, rfl⟩
  case contracts =>
    rw [contracts_committed, contracts_committed]
    refine List.map_congr_left fun r _ => ?_
    by_cases named : ∃ o ∈ outcomes, r.id = o.contractId
    · obtain ⟨o, mem, own⟩ := named
      rw [setAll_of_mem distinct mem own, setAll_of_mem distinct' (reordered.mem_iff.2 mem) own]
    · have others : ∀ o ∈ outcomes, r.id ≠ o.contractId := fun o mem own => named ⟨o, mem, own⟩
      rw [setAll_of_forall_ne others,
        setAll_of_forall_ne fun o mem => others o (reordered.mem_iff.1 mem)]
  case functions =>
    have same_left : db.functions.filter (fun r => (other.map IndexOutcome.contractId).all fun id =>
          r.contractId != some id) =
        db.functions.filter fun r => (outcomes.map IndexOutcome.contractId).all fun id =>
          r.contractId != some id :=
      List.filter_congr fun r _ => (reordered.map IndexOutcome.contractId).all_eq
    show (List.filter _ db.functions ++ other.flatMap rowsOf).Perm
      (List.filter _ db.functions ++ outcomes.flatMap rowsOf)
    rw [same_left]
    exact (reordered.flatMap_right rowsOf).append_left _
  case functionRows =>
    intro id
    by_cases named : ∃ o ∈ outcomes, o.contractId = id
    · obtain ⟨o, mem, rfl⟩ := named
      rw [functionRows_committed db distinct owned mem,
        functionRows_committed db distinct' owned' (reordered.mem_iff.2 mem)]
    · have others : ∀ o ∈ outcomes, o.contractId ≠ id := fun o mem own => named ⟨o, mem, own⟩
      rw [functionRows_committed_of_forall_ne db owned others,
        functionRows_committed_of_forall_ne db owned' fun o mem =>
          others o (reordered.mem_iff.1 mem)]

/-- Whether a commit fails does not depend on the order of its outcomes. -/
theorem commit_fails_iff_of_perm {db : Database} {outcomes other : List (IndexOutcome FunctionRow)}
    (reordered : other.Perm outcomes) {breakdown : Option Nat} :
    (∃ failure, db.commit other breakdown = .error failure) ↔
      ∃ failure, db.commit outcomes breakdown = .error failure := by
  have empty : other ≠ [] ↔ outcomes ≠ [] := by
    rw [Ne, ← List.length_eq_zero_iff, reordered.length_eq, List.length_eq_zero_iff]
  have length : (commitStatements other).length = (commitStatements outcomes).length := by
    simp only [commitStatements, replaceStatements, statusStatements, List.length_append,
      List.length_map, reordered.length_eq, (reordered.flatMap_right rowsOf).length_eq]
  simp only [commit_fails_iff, empty, length, reordered.mem_iff]

/-! ## Committing in a transaction -/

/-- A commit as a transaction: its failure, if there is one, and the tables after it. -/
def transact (db : Database) (outcomes : List (IndexOutcome FunctionRow)) (breakdown : Option Nat) :
    Option StorageFailure × Database :=
  if outcomes.isEmpty then (none, db) else Transaction.run breakdown (commitStatements outcomes) db

theorem transact_eq (db : Database) (outcomes : List (IndexOutcome FunctionRow))
    (breakdown : Option Nat) :
    db.transact outcomes breakdown = match db.commit outcomes breakdown with
      | .ok after => (none, after)
      | .error failure => (some failure, db) := by
  unfold transact commit
  split
  · rfl
  · exact Transaction.run_eq ..

/-- **A commit replaces exactly what belongs to its contracts, in any order, or nothing.** -/
theorem commit_replaces (db : Database) {outcomes : List (IndexOutcome FunctionRow)}
    (distinct : (outcomes.map IndexOutcome.contractId).Nodup)
    (owned : ∀ o ∈ outcomes, ∀ r ∈ o.functions, r.contractId = some o.contractId)
    (breakdown : Option Nat) :
    (∀ after, db.commit outcomes breakdown = .ok after →
      db.transact outcomes breakdown = (none, after) ∧ db.Replaces outcomes after ∧
      ∀ other, other.Perm outcomes → ∃ same, db.commit other breakdown = .ok same ∧
        same.Alike after) ∧
    (∀ failure, db.commit outcomes breakdown = .error failure →
      db.transact outcomes breakdown = (some failure, db)) ∧
    ((∃ failure, db.commit outcomes breakdown = .error failure) ↔
      outcomes ≠ [] ∧ ((∃ o ∈ outcomes, ∃ r ∈ rowsOf o, r.isComplete = false) ∨
        ∃ k ≤ (commitStatements outcomes).length, breakdown = some k)) := by
  refine ⟨?through, ?failed, commit_fails_iff⟩
  case through =>
    intro after through
    have whole := eq_committed through
    refine ⟨by rw [transact_eq, through], whole ▸ replaces_committed db distinct owned, ?_⟩
    intro other reordered
    cases reached : db.commit other breakdown with
    | ok same => exact ⟨same, rfl,
        eq_committed reached ▸ whole ▸ alike_committed db reordered distinct owned⟩
    | error failure =>
      obtain ⟨failure', fails⟩ := (commit_fails_iff_of_perm reordered).1 ⟨failure, reached⟩
      rw [fails] at through
      cases through
  case failed =>
    intro failure fails
    rw [transact_eq, fails]

/-! ## Three contracts, two outcomes -/

/-- The row of a function without what a row need not have. -/
def bareRow (contractId selector signature : String) : FunctionRow where
  contractId := some contractId
  selector := some selector
  signature := some signature

/-- Tables in which one of three contracts was indexed before, and one is of an older release. -/
def threeContracts : Database where
  contracts := [{ id := "a" }, { id := "b", status := "indexed", wasIndexed := true },
    { id := "c", status := "old" }]
  functions := [bareRow "b" "c0406226" "run()", bareRow "c" "26121ff0" "f()"]

/-- An outcome that finds a selector twice, and a failure that carries functions all the same. -/
def twoOutcomes : List (IndexOutcome FunctionRow) :=
  [{ contractId := "b", status := .failed, functions := [bareRow "b" "c0406226" "run()"]
     errorKind := some "compile_timeout", errorMessage := some "too slow" },
   { contractId := "a", status := .indexed
     functions := [bareRow "a" "26121ff0" "f()", bareRow "a" "e2179b8e" "g()",
       bareRow "a" "26121ff0" "h()"] }]

/-- Of the selector that was found twice the first row is written, the failed contract loses its
row, and the third contract keeps its own; a breakdown after three of the six statements leaves all
as it was. -/
theorem commit_replaces_twoOutcomes :
    ∃ after, threeContracts.commit twoOutcomes none = .ok after ∧
      threeContracts.Replaces twoOutcomes after ∧
      after.contracts =
        [{ id := "a", status := "indexed", wasIndexed := true },
         { id := "b"
           status := "failed"
           errorKind := some "compile_timeout"
           errorMessage := some "too slow"
           wasIndexed := true },
         { id := "c", status := "old" }] ∧
      after.functions = [bareRow "c" "26121ff0" "f()", bareRow "a" "26121ff0" "f()",
        bareRow "a" "e2179b8e" "g()"] ∧
      (∃ same, threeContracts.commit twoOutcomes.reverse none = .ok same ∧ same.Alike after) ∧
      threeContracts.transact twoOutcomes (some 3) = (some .breakdown, threeContracts) := by
  have distinct : (twoOutcomes.map IndexOutcome.contractId).Nodup := by decide
  have owned : ∀ o ∈ twoOutcomes, ∀ r ∈ o.functions, r.contractId = some o.contractId := by decide
  have through : threeContracts.commit twoOutcomes none =
      .ok (threeContracts.committed twoOutcomes) :=
    commit_of_complete (by decide)
  have breaks : threeContracts.commit twoOutcomes (some 3) = .error .breakdown := rfl
  obtain ⟨-, replaces, reordered⟩ :=
    (commit_replaces threeContracts distinct owned none).1 _ through
  exact ⟨_, through, replaces, by decide, by decide, reordered _ twoOutcomes.reverse_perm,
    (commit_replaces threeContracts distinct owned (some 3)).2.1 _ breaks⟩

end Database

end SelectorCatalog
