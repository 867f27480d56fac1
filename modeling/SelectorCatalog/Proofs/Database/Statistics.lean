import Mathlib.Data.Nat.Find
import SelectorCatalog.Proofs.Database.Replacing
import SelectorCatalog.Proofs.Database.Tally
import SelectorCatalog.Proofs.Indexing.Reference

/-!
# What the statistics add up to

The numbers by status add up to the number of contracts (`Database.HasStatuses.total_statusCounts`).
Failures are counted by the names of their kinds, and three kinds have one name: none at all, the
empty one and "unknown". Of kinds with one name the least frequent one is counted
(`Database.get?_failureCounts`), so the numbers fall short of the failed contracts by those that it
hides (`Database.total_failureCounts`), and add up exactly if at most one of the three kinds occurs.
A summary counts every failure (`IndexSummary.get?_failures_foldl`); `Database.Built.statistics`
says when both count alike, and `Database.exists_failure_not_counted` shows a failure that is lost.
-/

set_option autoImplicit false

namespace SelectorCatalog

/-! ## Kinds of failure and their names -/

namespace Database

/-- The kinds that are counted as unknown. -/
def unknownKinds : List (Option String) := [none, some "", some "unknown"]

theorem failureName_of_mem {kind : Option String} (unknown : kind ∈ unknownKinds) :
    failureName kind = "unknown" := by
  revert kind
  decide

/-- All other kinds are counted under themselves. -/
theorem some_failureName {kind : Option String} (known : kind ∉ unknownKinds) :
    some (failureName kind) = kind := by
  cases kind with
  | none => exact absurd List.mem_cons_self known
  | some s =>
    have named : s ≠ "" := fun empty => known (by simp [unknownKinds, empty])
    simp [failureName, named]

theorem failureName_eq_unknown_iff {kind : Option String} :
    failureName kind = "unknown" ↔ kind ∈ unknownKinds := by
  refine ⟨fun unknown => ?_, failureName_of_mem⟩
  by_contra known
  have own := some_failureName known
  rw [unknown] at own
  exact known (own ▸ by decide)

/-- Kinds that are counted under one name other than that of the unknown ones are the same. -/
theorem eq_of_failureName_eq {j k : Option String} (same : failureName j = failureName k)
    (known : failureName j ≠ "unknown") : j = k := by
  have left := some_failureName (mt failureName_eq_unknown_iff.2 known)
  have right := some_failureName (mt failureName_eq_unknown_iff.2 (same ▸ known))
  rw [← left, ← right, same]

/-- The kinds of the failed contracts. -/
def failedKinds (db : Database) :
    List (Option String) := (db.withStatus .failed).map ContractRow.errorKind

/-- The number of the failed contracts of a kind. -/
def failedWith (db : Database) (kind : Option String) :
    Nat := db.failedKinds.countP fun k => k = kind

/-- **The number under a name is that of the least frequent kind of this name.** -/
theorem get?_failureCounts {db : Database} {name : String} {n : Nat} :
    db.failureCounts.get? name = some n ↔
      (∃ kind ∈ db.failedKinds, failureName kind = name ∧ db.failedWith kind = n) ∧
      ∀ kind ∈ db.failedKinds, failureName kind = name → n ≤ db.failedWith kind := by
  let frequent := fun a b : Option String × Nat => decide (b.2 ≤ a.2)
  have sorted : ((tally db.failedKinds).mergeSort frequent).Pairwise fun a b => b.2 ≤ a.2 := by
    have transitive (a b c : Option String × Nat) (first : frequent a b) (second : frequent b c) :
        frequent a c := by
      simp only [frequent, decide_eq_true_iff] at first second ⊢
      exact Nat.le_trans second first
    have total (a b : Option String × Nat) : (frequent a b || frequent b a) = true := by
      simpa [frequent] using Nat.le_total b.2 a.2
    simpa [frequent] using List.pairwise_mergeSort transitive total (tally db.failedKinds)
  have mem {name : String} {m : Nat} :
      (name, m) ∈ ((tally db.failedKinds).mergeSort frequent).map
        (fun e => (failureName e.1, e.2)) ↔
        ∃ kind ∈ db.failedKinds, failureName kind = name ∧ db.failedWith kind = m := by
    simp only [List.mem_map, (List.mergeSort_perm _ _).mem_iff, mem_tally, Prod.exists,
      Prod.mk.injEq]
    constructor
    · rintro ⟨kind, _, ⟨occurs, number⟩, named, rfl⟩
      exact ⟨kind, occurs, named, number.symm⟩
    · rintro ⟨kind, occurs, named, rfl⟩
      exact ⟨kind, _, ⟨occurs, rfl⟩, named, rfl⟩
  have counts : db.failureCounts =
      .ofList (((tally db.failedKinds).mergeSort frequent).map fun e => (failureName e.1, e.2)) :=
    rfl
  rw [counts, OrderedMap.get?_ofList_descending (List.pairwise_map.2 sorted), mem]
  refine and_congr_right fun _ => ⟨fun least kind occurs named => ?_, fun least m mem' => ?_⟩
  · exact least _ (mem.2 ⟨kind, occurs, named, rfl⟩)
  · obtain ⟨kind, occurs, named, rfl⟩ := mem.1 mem'
    exact least kind occurs named

/-- The number of the failed contracts whose kind is counted under a name. -/
def failedNamed (db : Database) (name : String) :
    Nat := db.failedKinds.countP fun k => failureName k = name

/-- A kind has all failures of its name exactly if no other kind of this name occurs. -/
theorem failedWith_eq_failedNamed_iff {db : Database} {kind : Option String} {name : String}
    (named : failureName kind = name) :
    db.failedWith kind = db.failedNamed name ↔
      ∀ k ∈ db.failedKinds, failureName k = name → k = kind := by
  have among : db.failedKinds.filter (fun k => k = kind) =
      (db.failedKinds.filter fun k => failureName k = name).filter fun k => k = kind := by
    rw [List.filter_filter]
    refine List.filter_congr fun k _ => ?_
    by_cases same : k = kind
    · simp [same, named]
    · simp [same]
  rw [failedWith, failedNamed, List.countP_eq_length_filter, List.countP_eq_length_filter, among,
    List.length_filter_eq_length_iff]
  simp

/-- What is counted under a name is the number of its least frequent kind, if it has a kind at
all. -/
theorem get?_failureCounts_cases (db : Database) (name : String) :
    db.failureCounts.get? name = none ∧ (∀ kind ∈ db.failedKinds, failureName kind ≠ name) ∨
      ∃ kind ∈ db.failedKinds, failureName kind = name ∧
        db.failureCounts.get? name = some (db.failedWith kind) := by
  cases found : db.failureCounts.get? name with
  | some n =>
    obtain ⟨⟨kind, occurs, named, rfl⟩, -⟩ := get?_failureCounts.1 found
    exact .inr ⟨kind, occurs, named, rfl⟩
  | none =>
    refine .inl ⟨rfl, fun kind occurs named => ?_⟩
    have numbers : ∃ n, ∃ kind ∈ db.failedKinds, failureName kind = name ∧ db.failedWith kind = n :=
      ⟨_, kind, occurs, named, rfl⟩
    classical
    have least := get?_failureCounts.2 ⟨Nat.find_spec numbers, fun j mem same =>
      Nat.find_min' numbers ⟨j, mem, same, rfl⟩⟩
    rw [found] at least
    cases least

end Database

/-! ## Counting one by one -/

/-- **A summary counts failures one by one under the names of their kinds.** -/
theorem IndexSummary.get?_failures_foldl (os : List (IndexOutcome FunctionRow)) (name : String) :
    (os.foldl add {}).failures.get? name =
      Database.counted (os.countP fun o => o.status ≠ .indexed ∧
        Database.failureName o.errorKind = name) := by
  induction os using List.reverseRecOn with
  | nil => rfl
  | append_singleton os o ih =>
    rw [List.foldl_append, List.foldl_cons, List.foldl_nil, add, List.countP_append]
    split
    · rename_i indexed
      simp [ih, indexed]
    · rename_i failed
      by_cases same : Database.failureName o.errorKind = name
      · subst same
        rw [OrderedMap.get?_insert_self, ih, Database.getD_counted, Database.counted_of_pos]
        · simp [failed]
        · simp [failed]
      · rw [OrderedMap.get?_insert_of_ne _ (Ne.symm same), ih]
        simp [same]

namespace Database

/-- **Under a name all its failures are counted exactly if only one kind of this name occurs.** -/
theorem get?_failureCounts_eq_counted_iff {db : Database} {name : String} :
    db.failureCounts.get? name = counted (db.failedNamed name) ↔
      ∀ j ∈ db.failedKinds, ∀ k ∈ db.failedKinds, failureName j = name →
        failureName k = name → j = k := by
  rcases db.get?_failureCounts_cases name with ⟨absent, other⟩ | ⟨kind, occurs, named, found⟩
  · have none_named : db.failedNamed name = 0 := List.countP_eq_zero.2 fun k mem => by
      simpa using other k mem
    rw [absent, none_named]
    exact iff_of_true rfl fun j mem _ _ named => absurd named (other j mem)
  · have positive : 0 < db.failedNamed name :=
      List.countP_pos_iff.2 ⟨kind, occurs, by simpa using named⟩
    rw [found, counted_of_pos positive, Option.some.injEq, failedWith_eq_failedNamed_iff named]
    constructor
    · intro only j hj k hk left right
      rw [only j hj left, only k hk right]
    · intro alike k hk right
      exact alike k hk kind occurs right named

theorem get?_failureCounts_of_ne {db : Database} {name : String} (known : name ≠ "unknown") :
    db.failureCounts.get? name = counted (db.failedNamed name) := by
  rw [get?_failureCounts_eq_counted_iff]
  rintro j - k - left right
  exact eq_of_failureName_eq (left.trans right.symm) (left ▸ known)

/-! ## The sum of the failures -/

/-- The outcome that the row of a failed contract tells. -/
def toldFailure (r : ContractRow) : IndexOutcome FunctionRow where
  contractId := r.id
  status := .failed
  errorKind := r.errorKind
  errorMessage := r.errorMessage

/-- **The failures that are counted fall short of the failed contracts by those that the least
frequent of the unknown kinds hides.** -/
theorem total_failureCounts (db : Database) :
    Assoc.total db.failureCounts.entries + db.failedNamed "unknown" =
      db.count (some .failed) + (db.failureCounts.get? "unknown").getD 0 := by
  let told := (db.withStatus .failed).map toldFailure
  have accumulated (name : String) :
      (told.foldl IndexSummary.add {}).failures.get? name = counted (db.failedNamed name) := by
    rw [IndexSummary.get?_failures_foldl, List.countP_map, failedNamed, failedKinds,
      List.countP_map]
    refine congrArg counted (List.countP_congr fun r _ => ?_)
    rw [Function.comp_apply, Function.comp_apply, decide_eq_true_iff, decide_eq_true_iff]
    exact and_iff_right fun same => ContractStatus.noConfusion same
  have every : Assoc.total (told.foldl IndexSummary.add {}).failures.entries =
      db.count (some .failed) := by
    rw [(IndexSummary.counts_foldl told {}).total, List.countP_map]
    simp [Function.comp_def, toldFailure, OrderedMap.empty, Assoc.total, count]
  have known : ∀ name, name ≠ "unknown" →
      db.failureCounts.get? name = (told.foldl IndexSummary.add {}).failures.get? name := by
    intro name other
    rw [accumulated, get?_failureCounts_of_ne other]
  have difference := OrderedMap.total_of_forall_ne known
  rwa [every, accumulated, getD_counted] at difference

/-- Of no kind, the empty kind and the kind "unknown" at most one occurs among the failed
contracts. -/
def HasOneUnknown (db : Database) : Prop :=
  ∀ j ∈ db.failedKinds, ∀ k ∈ db.failedKinds, j ∈ unknownKinds → k ∈ unknownKinds → j = k

instance (db : Database) : Decidable db.HasOneUnknown :=
  inferInstanceAs (Decidable (∀ j ∈ db.failedKinds, ∀ k ∈ db.failedKinds,
    j ∈ unknownKinds → k ∈ unknownKinds → j = k))

theorem get?_failureCounts_unknown_iff {db : Database} :
    db.failureCounts.get? "unknown" = counted (db.failedNamed "unknown") ↔ db.HasOneUnknown := by
  rw [get?_failureCounts_eq_counted_iff]
  simp only [failureName_eq_unknown_iff, HasOneUnknown]

theorem total_failureCounts_eq_iff {db : Database} :
    Assoc.total db.failureCounts.entries = db.count (some .failed) ↔ db.HasOneUnknown := by
  have difference := db.total_failureCounts
  rw [← get?_failureCounts_unknown_iff]
  constructor
  · intro whole
    rcases db.get?_failureCounts_cases "unknown" with ⟨absent, -⟩ | ⟨kind, occurs, -, found⟩
    · rw [absent, Option.getD_none] at difference
      have none_named : db.failedNamed "unknown" = 0 := by omega
      rw [absent, none_named]
      rfl
    · rw [found, Option.getD_some] at difference
      have positive : 0 < db.failedWith kind := List.countP_pos_iff.2 ⟨kind, occurs, by simp⟩
      have all_named : db.failedNamed "unknown" = db.failedWith kind := by omega
      rw [found, all_named, counted_of_pos positive]
  · intro same
    rw [same, getD_counted] at difference
    omega

/-! ## Numbers by status -/

theorem statusCounts_sum {rows : List ContractRow}
    (known : ∀ r ∈ rows, ∃ s : ContractStatus, r.status = s.label) :
    Assoc.total (ContractStatus.all.map fun s =>
      (s.label, (rows.filter fun r => r.status == s.label).length)) = rows.length := by
  induction rows with
  | nil => rfl
  | cons r rest ih =>
    obtain ⟨⟨s, own⟩, others⟩ := List.forall_mem_cons.1 known
    have sum := ih others
    simp only [ContractStatus.all, List.map_cons, List.map_nil, Assoc.total,
      ContractStatus.label] at sum ⊢
    cases s <;> simp [own, ContractStatus.label] <;> omega

/-- No two rows have one id, and every row has one of the statuses. -/
structure HasStatuses (db : Database) : Prop where
  distinct : (db.contracts.map ContractRow.id).Nodup
  status : ∀ r ∈ db.contracts, ∃ s : ContractStatus, r.status = s.label

/-- **The numbers by status stand in the order of the statuses.** -/
theorem HasStatuses.entries_statusCounts {db : Database} (h : db.HasStatuses) :
    db.statusCounts.entries = ContractStatus.all.map fun s => (s.label, db.count (some s)) := by
  let known := OrderedMap.ofList (ContractStatus.all.map fun s => (s.label, 0))
  let statuses := db.contracts.map ContractRow.status
  have counts : db.statusCounts = (tally statuses).foldl (fun m e => m.insert e.1 e.2) known := rfl
  have names : Assoc.names known.entries = ContractStatus.all.map ContractStatus.label := by decide
  have there : ∀ e ∈ tally statuses, e.1 ∈ Assoc.names known.entries := by
    intro e mem
    obtain ⟨r, hr, own⟩ := List.mem_map.1 (mem_tally.1 mem).1
    obtain ⟨s, same⟩ := h.status r hr
    rw [names, ← own, same]
    exact List.mem_map_of_mem (by cases s <;> decide)
  have number (s : ContractStatus) : (db.statusCounts.get? s.label).getD 0 = db.count (some s) := by
    have zero : known.get? s.label = some 0 := by cases s <;> decide
    have rows : statuses.countP (fun t => t = s.label) = db.count (some s) := by
      rw [List.countP_map, count, withStatus, List.countP_eq_length_filter]
      rfl
    rw [counts, OrderedMap.get?_foldl_insert (nodup_tally statuses), get?_tally, zero, rows]
    cases db.count (some s) <;> rfl
  rw [OrderedMap.entries_eq_map, counts, OrderedMap.names_foldl_insert there, names, List.map_map,
    ← counts]
  exact List.map_congr_left fun s _ => congrArg (Prod.mk s.label) (number s)

theorem HasStatuses.total_statusCounts {db : Database} (h : db.HasStatuses) :
    Assoc.total db.statusCounts.entries = db.count none := by
  rw [h.entries_statusCounts]
  exact statusCounts_sum h.status

/-! ## Tables that were built up -/

/-- Tables that an empty database can come to by storing contracts, committing outcomes and moving
contracts back to pending. -/
inductive Built : Database → Prop where
  | empty : Built {}
  | store {db : Database} (h : Built db) (cs : List Contract) : Built (db.store cs)
  | commit {db after : Database} (h : Built db) (outcomes : List (IndexOutcome FunctionRow))
      (breakdown : Option Nat) (through : db.commit outcomes breakdown = .ok after) : Built after
  | reset {db : Database} (h : Built db) (statuses : List ContractStatus) :
    Built (db.reset statuses)

theorem HasStatuses.storeOne {db : Database} (h : db.HasStatuses) (c : Contract) :
    (db.storeOne c).HasStatuses := by
  refine ⟨distinct_storeOne h.distinct c, fun r hr => ?_⟩
  rcases mem_storeOne hr with old | rfl
  · exact h.status r old
  · exact ⟨.pending, rfl⟩

/-- A change of rows that leaves their ids and gives them no other statuses. -/
theorem HasStatuses.map {db after : Database} (h : db.HasStatuses) {f : ContractRow → ContractRow}
    (rows : after.contracts = db.contracts.map f) (id : ∀ r, (f r).id = r.id)
    (status : ∀ r, (f r).status = r.status ∨ ∃ s : ContractStatus, (f r).status = s.label) :
    after.HasStatuses := by
  refine ⟨?_, fun r hr => ?_⟩
  · rw [rows, ContractRow.ids_map id]
    exact h.distinct
  · rw [rows] at hr
    obtain ⟨s, hs, rfl⟩ := List.mem_map.1 hr
    rcases status s with same | set
    · exact same ▸ h.status s hs
    · exact set

theorem status_setAll (outcomes : List (IndexOutcome FunctionRow)) (r : ContractRow) :
    (setAll outcomes r).status = r.status ∨ ∃ s : ContractStatus,
      (setAll outcomes r).status = s.label := by
  induction outcomes generalizing r with
  | nil => exact .inl rfl
  | cons o rest ih =>
    rcases ih (r.setOutcome o) with same | set
    · by_cases own : r.id = o.contractId
      · refine .inr ⟨o.status, same.trans ?_⟩
        rw [ContractRow.setOutcome, if_pos own]
      · exact .inl (same.trans (by rw [ContractRow.setOutcome_of_ne own]))
    · exact .inr set

theorem Built.hasStatuses {db : Database} (h : Built db) : db.HasStatuses := by
  induction h with
  | empty => exact ⟨List.nodup_nil, by simp⟩
  | store _ cs ih =>
    exact LoadState.store_keeps (Q := fun _ => True) (fun _ c _ h => h.storeOne c)
      (fun _ _ => trivial) ih
  | commit _ outcomes breakdown through ih =>
    exact ih.map (eq_committed through ▸ contracts_committed _ outcomes) (id_setAll outcomes)
      (status_setAll outcomes)
  | reset _ statuses ih =>
    refine ih.map (contracts_reset _ statuses) (ContractRow.id_back statuses) fun r => ?_
    unfold ContractRow.back
    split
    · exact .inr ⟨.pending, rfl⟩
    · exact .inl rfl

/-! ## Failures that outcomes bring -/

/-- Outcomes of different stored contracts, among them all that failed before; none of them is left
pending. -/
structure Covers (db : Database) (outcomes : List (IndexOutcome FunctionRow)) : Prop where
  distinct : (outcomes.map IndexOutcome.contractId).Nodup
  stored : ∀ o ∈ outcomes, o.contractId ∈ db.contracts.map ContractRow.id
  finished : ∀ o ∈ outcomes, o.status ≠ .pending
  failed : ∀ r ∈ db.contracts, r.status = ContractStatus.failed.label →
    ∃ o ∈ outcomes, r.id = o.contractId

/-- The failed contracts after a commit are those of its outcomes. -/
theorem Covers.mem_withStatus {db after : Database} {outcomes : List (IndexOutcome FunctionRow)}
    (h : db.Covers outcomes) {breakdown : Option Nat}
    (through : db.commit outcomes breakdown = .ok after) {id : String} {kind : Option String} :
    (∃ r ∈ after.withStatus .failed, r.id = id ∧ r.errorKind = kind) ↔
      ∃ o ∈ outcomes, o.status ≠ .indexed ∧ o.contractId = id ∧ o.errorKind = kind := by
  rw [withStatus, eq_committed through, contracts_committed]
  simp only [List.mem_filter, List.mem_map, beq_iff_eq]
  constructor
  · rintro ⟨_, ⟨⟨r, hr, rfl⟩, failed⟩, own, why⟩
    by_cases named : ∃ o ∈ outcomes, r.id = o.contractId
    · obtain ⟨o, mem, same⟩ := named
      rw [setAll_of_mem h.distinct mem same, ContractRow.setOutcome, if_pos same] at failed own why
      have status : o.status = .failed := ContractStatus.label_injective failed
      exact ⟨o, mem, by rw [status]; decide, same.symm.trans own, why⟩
    · rw [setAll_of_forall_ne fun o mem same => named ⟨o, mem, same⟩] at failed
      exact absurd (h.failed r hr failed) named
  · rintro ⟨o, mem, unindexed, own, why⟩
    obtain ⟨r, hr, same⟩ := List.mem_map.1 (h.stored o mem)
    have status : o.status = .failed := by
      have finished := h.finished o mem
      cases same : o.status <;> simp_all
    refine ⟨_, ⟨⟨r, hr, rfl⟩, ?_⟩, ?_⟩
    · rw [setAll_of_mem h.distinct mem same, ContractRow.setOutcome, if_pos same, status]
    · rw [setAll_of_mem h.distinct mem same, ContractRow.setOutcome, if_pos same]
      exact ⟨same.trans own, why⟩

/-- The kinds of the failed contracts after a commit are those that its outcomes bring. -/
theorem Covers.failedKinds_perm {db after : Database} (sound : db.HasStatuses)
    {outcomes : List (IndexOutcome FunctionRow)} (h : db.Covers outcomes) {breakdown : Option Nat}
    (through : db.commit outcomes breakdown = .ok after) :
    after.failedKinds.Perm
      ((outcomes.filter fun o => o.status ≠ .indexed).map IndexOutcome.errorKind) := by
  have ids : (after.contracts.map ContractRow.id).Nodup := by
    rw [eq_committed through, contracts_committed, ContractRow.ids_map (id_setAll outcomes)]
    exact sound.distinct
  -- Told with their ids, the failures of both sides are without repetition.
  have rows : ((after.withStatus .failed).map fun r => (r.id, r.errorKind)).Nodup := by
    refine List.Nodup.of_map Prod.fst ?_
    rw [List.map_map]
    exact ids.sublist (List.filter_sublist.map _)
  have brought : ((outcomes.filter fun o => o.status ≠ .indexed).map fun o =>
      (o.contractId, o.errorKind)).Nodup := by
    refine List.Nodup.of_map Prod.fst ?_
    rw [List.map_map]
    exact h.distinct.sublist (List.filter_sublist.map _)
  have same : ((after.withStatus .failed).map fun r => (r.id, r.errorKind)).Perm
      ((outcomes.filter fun o => o.status ≠ .indexed).map fun o =>
        (o.contractId, o.errorKind)) := by
    rw [List.perm_ext_iff_of_nodup rows brought]
    rintro ⟨id, kind⟩
    simpa [and_assoc] using h.mem_withStatus through
  simpa [failedKinds, Function.comp_def] using same.map Prod.snd

/-- The summary of the outcomes counts the failures by name. -/
theorem Covers.get?_failures {db after : Database} (sound : db.HasStatuses)
    {outcomes : List (IndexOutcome FunctionRow)} (h : db.Covers outcomes) {breakdown : Option Nat}
    (through : db.commit outcomes breakdown = .ok after) (name : String) :
    (outcomes.foldl IndexSummary.add {}).failures.get? name = counted (after.failedNamed name) := by
  rw [IndexSummary.get?_failures_foldl, failedNamed, (h.failedKinds_perm sound through).countP_eq,
    List.countP_map, List.countP_filter]
  refine congrArg counted (List.countP_congr fun o _ => ?_)
  simp [and_comm]

/-! ## Main result -/

/-- **The numbers by status add up, and those by kind of failure do so exactly if at most one
unknown kind occurs**; then they are those that a summary counts of the same outcomes. -/
theorem Built.statistics {db : Database} (h : Built db) :
    db.statusCounts.entries = ContractStatus.all.map (fun s => (s.label, db.count (some s))) ∧
    Assoc.total db.statusCounts.entries = db.count none ∧
    (∀ name n, db.failureCounts.get? name = some n ↔
      (∃ kind ∈ db.failedKinds, failureName kind = name ∧ db.failedWith kind = n) ∧
      ∀ kind ∈ db.failedKinds, failureName kind = name → n ≤ db.failedWith kind) ∧
    Assoc.total db.failureCounts.entries + db.failedNamed "unknown" =
      db.count (some .failed) + (db.failureCounts.get? "unknown").getD 0 ∧
    (Assoc.total db.failureCounts.entries = db.count (some .failed) ↔ db.HasOneUnknown) ∧
    ∀ outcomes, db.Covers outcomes → ∀ breakdown after, db.commit outcomes breakdown = .ok after →
      let summary := outcomes.foldl IndexSummary.add {}
      (∀ name, name ≠ "unknown" → after.failureCounts.get? name = summary.failures.get? name) ∧
      (after.failureCounts.get? "unknown" = summary.failures.get? "unknown" ↔
        after.HasOneUnknown) := by
  have sound := h.hasStatuses
  refine ⟨sound.entries_statusCounts, sound.total_statusCounts, fun _ _ => get?_failureCounts,
    db.total_failureCounts, total_failureCounts_eq_iff, ?_⟩
  intro outcomes covers breakdown after through summary
  refine ⟨fun name other => ?_, ?_⟩
  · rw [covers.get?_failures sound through, get?_failureCounts_of_ne other]
  · rw [covers.get?_failures sound through]
    exact get?_failureCounts_unknown_iff

/-! ## Three failures -/

/-- A contract of an id. -/
def bareContract (id : String) : Contract where
  name := some id
  compilerVersion := some "0.8.20"
  sources := [("main.sol", "")]
  id := id

/-- Tables with three contracts that are pending. -/
def threePending :
    Database := ({} : Database).store [bareContract "a", bareContract "b", bareContract "c"]

/-- The failure of a contract without a message. -/
def bareFailure (contractId : String) (kind : Option String) : IndexOutcome FunctionRow where
  contractId := contractId
  status := .failed
  errorKind := kind

/-- Two failures without a kind and one with a kind. -/
def threeFailures : List (IndexOutcome FunctionRow) :=
  [bareFailure "a" none, bareFailure "b" (some "compile_timeout"), bareFailure "c" none]

/-- With one unknown kind the tables count what the outcomes told. -/
theorem statistics_threeFailures :
    ∃ after, threePending.commit threeFailures none = .ok after ∧ Built after ∧
      Assoc.total after.statusCounts.entries = 3 ∧ Assoc.total after.failureCounts.entries = 3 ∧
      ∀ name, after.failureCounts.get? name =
        (threeFailures.foldl IndexSummary.add {}).failures.get? name := by
  have built : Built threePending := .store .empty _
  have through : threePending.commit threeFailures none =
      .ok (threePending.committed threeFailures) :=
    commit_of_complete (by decide)
  have covers : threePending.Covers threeFailures := ⟨by decide, by decide, by decide, by decide⟩
  have one : (threePending.committed threeFailures).HasOneUnknown := by decide
  have after := Built.statistics (.commit built threeFailures none through)
  obtain ⟨named, unknown⟩ := (Built.statistics built).2.2.2.2.2 threeFailures covers none _ through
  refine ⟨_, through, .commit built threeFailures none through, after.2.1.trans (by decide),
    (after.2.2.2.2.1.2 one).trans (by decide), fun name => ?_⟩
  by_cases same : name = "unknown"
  · exact same ▸ unknown.2 one
  · exact named name same

/-- Two contracts that failed, one without a kind and one of the kind "unknown". -/
def twoUnknown : Database :=
  (({} : Database).store [bareContract "a", bareContract "b"]).committed
    [bareFailure "a" none, bareFailure "b" (some "unknown")]

/-- **Failures get lost.** Two contracts failed, and under the one name of their kinds only one
failure is counted. -/
theorem exists_failure_not_counted :
    Built twoUnknown ∧ twoUnknown.count (some .failed) = 2 ∧
      twoUnknown.failureCounts.get? "unknown" = some 1 ∧
      Assoc.total twoUnknown.failureCounts.entries = 1 ∧
      ([bareFailure "a" none,
        bareFailure "b" (some "unknown")].foldl IndexSummary.add {}).failures.get? "unknown" =
        some 2 := by
  have built : Built twoUnknown := .commit (.store .empty _) _ none (commit_of_complete (by decide))
  have hidden : twoUnknown.failureCounts.get? "unknown" = some 1 :=
    get?_failureCounts.2 ⟨⟨none, by decide, by decide, by decide⟩, by decide⟩
  have difference := twoUnknown.total_failureCounts
  have failed : twoUnknown.count (some .failed) = 2 := by decide
  have named : twoUnknown.failedNamed "unknown" = 2 := by decide
  rw [hidden, failed, named, Option.getD_some] at difference
  exact ⟨built, failed, hidden, Nat.add_right_cancel (difference.trans (Nat.add_comm 2 1)), rfl⟩

end Database

end SelectorCatalog
