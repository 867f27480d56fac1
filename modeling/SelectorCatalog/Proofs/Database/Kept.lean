import SelectorCatalog.Compiler.Input
import SelectorCatalog.Proofs.Corpus.Layouts
import SelectorCatalog.Proofs.Database.Storing
import SelectorCatalog.Proofs.Indexing.Reachable

/-!
# Storing loses nothing

A stored contract is read back with its libraries in ascending order and its constructor arguments
as a text. Both leave it the same contract (`Contract.Keeps`): nothing else differs, its content
still has its id, and the compiler is given the same document. So what is stored first under a new
id comes back from the table, alone and on every page of pending contracts that reaches it
(`Database.store_loses_nothing`).
-/

set_option autoImplicit false

namespace SelectorCatalog

/-! ## Ordered maps -/

namespace OrderedMap

variable {α β : Type}

theorem get?_inOrder (m : OrderedMap α) (name : String) : m.inOrder.get? name = m.get? name :=
  Assoc.get?_of_perm (KeyOrder.sort_perm Prod.fst m.entries) m.inOrder.nodup name

theorem get?_mapValues (f : α → β) (m : OrderedMap α) (name : String) :
    (m.mapValues f).get? name = (m.get? name).map f :=
  Assoc.get?_map f name m.entries

@[simp] theorem inOrder_inOrder (m : OrderedMap α) : m.inOrder.inOrder = m.inOrder :=
  ext' (KeyOrder.sort_eq_of_perm Prod.fst (.refl _) (KeyOrder.pairwise_sort_lt m.nodup))

theorem mapValues_inOrder (f : α → β) (m : OrderedMap α) :
    m.inOrder.mapValues f = (m.mapValues f).inOrder :=
  ext' (@KeyOrder.map_sort _ _ Prod.fst (fun e : String × α => (e.1, f e.2)) m.entries)

theorem mapValues_mapValues {γ : Type} (f : α → β) (g : β → γ) (m : OrderedMap α) :
    (m.mapValues f).mapValues g = m.mapValues (g ∘ f) :=
  ext' (by simp [mapValues])

theorem isEmpty_inOrder (m : OrderedMap α) : m.inOrder.isEmpty = m.isEmpty := by
  have same := (KeyOrder.sort_perm Prod.fst m.entries).isEmpty_eq
  exact same

theorem isEmpty_mapValues (f : α → β) (m : OrderedMap α) : (m.mapValues f).isEmpty = m.isEmpty := by
  simp [isEmpty, mapValues]

end OrderedMap

/-! ## Settings -/

namespace CompilerSettings

/-- Settings that differ in nothing but the order of libraries. -/
structure Agrees (s t : CompilerSettings) : Prop where
  optimizerEnabled : s.optimizerEnabled = t.optimizerEnabled
  optimizerRuns : s.optimizerRuns = t.optimizerRuns
  evmVersion : s.evmVersion = t.evmVersion
  remappings : s.remappings = t.remappings
  viaIr : s.viaIr = t.viaIr
  libraries : ∀ unit, (s.libraries.get? unit).map OrderedMap.get? =
    (t.libraries.get? unit).map OrderedMap.get?

variable (s : CompilerSettings)

theorem agrees_inOrder : s.inOrder.Agrees s := by
  refine ⟨rfl, rfl, rfl, rfl, rfl, fun unit => ?_⟩
  have same (m : OrderedMap String) : m.inOrder.get? = m.get? := funext m.get?_inOrder
  show ((s.libraries.mapValues OrderedMap.inOrder).inOrder.get? unit).map OrderedMap.get? = _
  rw [OrderedMap.get?_inOrder, OrderedMap.get?_mapValues, Option.map_map]
  exact congrArg (fun f => (s.libraries.get? unit).map f) (funext same)

@[simp] theorem inOrder_inOrder : s.inOrder.inOrder = s.inOrder := by
  have libraries : s.inOrder.inOrder.libraries = s.inOrder.libraries := by
    show ((s.libraries.mapValues OrderedMap.inOrder).inOrder.mapValues OrderedMap.inOrder).inOrder =
      (s.libraries.mapValues OrderedMap.inOrder).inOrder
    rw [OrderedMap.mapValues_inOrder, OrderedMap.inOrder_inOrder, OrderedMap.mapValues_mapValues]
    congr 2
    exact funext OrderedMap.inOrder_inOrder
  exact congrArg (fun m => { s.inOrder with libraries := m }) libraries

/-- **The stored text does not depend on the order of libraries.** -/
theorem toText_inOrder : s.inOrder.toText = s.toText := by
  have members : s.inOrder.storedMembers = s.storedMembers := by
    rw [storedMembers, storedMembers, inOrder_inOrder]
    rfl
  rw [toText_eq_write, toText_eq_write, members]

theorem dump_inOrder : s.inOrder.dump = s.dump := by
  rw [dump_eq, dump_eq, toText_inOrder]
  rfl

theorem isEmpty_libraries_inOrder : s.inOrder.libraries.isEmpty = s.libraries.isEmpty := by
  show (s.libraries.mapValues OrderedMap.inOrder).inOrder.isEmpty = _
  rw [OrderedMap.isEmpty_inOrder, OrderedMap.isEmpty_mapValues]

/-- The members that the compiler is given are the same up to the order of names within them. -/
theorem sortEach_standardMembers_inOrder :
    Value.sortEach s.inOrder.standardMembers = Value.sortEach s.standardMembers := by
  have libraries : Value.sortMembers (.ofLibraries s.inOrder.libraries) =
      Value.sortMembers (.ofLibraries s.libraries) := by
    rw [Value.sortMembers_ofLibraries, Value.sortMembers_ofLibraries]
    exact congrArg (fun t => Value.ofLibraries t.libraries) s.inOrder_inOrder
  rw [Value.sortEach_eq_map, Value.sortEach_eq_map, standardMembers, standardMembers,
    isEmpty_libraries_inOrder]
  simp only [List.map_append]
  congr 2
  split
  · rfl
  · simp only [List.map_singleton, libraries]

end CompilerSettings

/-! ## Contracts -/

/-- A contract that is the same as another one: only the order of libraries may differ, and
constructor arguments that are no text. The content gives the id of both, and the compiler is given
one document. -/
structure Contract.Keeps (c original : Contract) : Prop where
  id : c.id = original.id
  name : c.name = original.name
  compilerVersion : c.compilerVersion = original.compilerVersion
  sources : c.sources = original.sources
  settings : c.settings.Agrees original.settings
  sourceFormat : c.sourceFormat = original.sourceFormat
  address : c.address = original.address
  constructorArgs : ∀ s, original.constructorArgs = .ofText? s → c.constructorArgs = .ofText? s
  identified : c.identify = .ok original.id
  compilerInput : c.compilerInput.sortMembers = original.compilerInput.sortMembers

theorem Contract.sortMembers_compilerInput_asStored (cast : TextCast) (c : Contract) :
    (c.asStored cast).compilerInput.sortMembers = c.compilerInput.sortMembers := by
  have members : Value.sortEach ((c.asStored cast).settings.standardMembers ++
      [("outputSelection", wantedResults)]) =
      Value.sortEach (c.settings.standardMembers ++ [("outputSelection", wantedResults)]) := by
    have settings := c.settings.sortEach_standardMembers_inOrder
    simp only [Value.sortEach_eq_map, List.map_append] at settings ⊢
    exact congrArg (· ++ _) settings
  have sources : (c.asStored cast).standardSources = c.standardSources := rfl
  simp only [compilerInput, inputDocument, Value.sortMembers, Value.sortEach, members, sources]

/-- **What is stored of a contract in normal form is the same contract.** -/
theorem Contract.IsNormal.asStored_keeps {c : Contract} (h : c.IsNormal) (cast : TextCast) :
    (c.asStored cast).Keeps c where
  id := rfl
  name := rfl
  compilerVersion := rfl
  sources := rfl
  settings := c.settings.agrees_inOrder
  sourceFormat := rfl
  address := rfl
  constructorArgs s given := by
    show Value.ofText? (c.constructorArgs.column cast) = .ofText? s
    rw [given]
    cases s <;> rfl
  identified := by
    have same : (c.asStored cast).identify = c.identify := by
      unfold identify contentId identityText
      simp only [asStored, c.settings.dump_inOrder, c.settings.toText_inOrder]
    exact same.trans h.identified
  compilerInput := c.sortMembers_compilerInput_asStored cast

/-- Constructor arguments that count as given are kept as a text that does. -/
theorem Value.orElse_column (cast : TextCast) {v : Value} (h : v.orElse .null = v) :
    (ofText? (v.column cast)).orElse .null = ofText? (v.column cast) := by
  by_cases given : v.isGiven = true
  · obtain ⟨s, same, filled⟩ : ∃ s, v.column cast = some s ∧ s ≠ "" := by
      cases v with
      | null => cases given
      | text s => exact ⟨s, rfl, by simpa [isGiven] using given⟩
      | _ => exact ⟨_, rfl, cast.filled _ given⟩
    rw [same]
    exact if_pos (by simpa [ofText?, isGiven] using filled)
  · rw [orElse, if_neg given] at h
    rw [← h]
    rfl

/-- **What is stored of a contract in normal form is in normal form.** -/
theorem Contract.IsNormal.asStored {c : Contract} (h : c.IsNormal) (cast : TextCast) :
    (c.asStored cast).IsNormal where
  identified := (h.asStored_keeps cast).identified
  settings := ⟨h.settings.runs, h.settings.machine⟩
  version := h.version
  address := h.address
  constructorArgs := Value.orElse_column cast h.constructorArgs

/-! ## Pages -/

namespace KeyOrder

theorem empty_lt {s : String} (h : s ≠ "") : "" < s := by
  obtain ⟨c, rest, split⟩ := List.exists_cons_of_ne_nil (by simpa using h : s.toList ≠ [])
  rw [String.lt_iff, split]
  exact List.nil_lt_cons c rest

/-- Between some text below a key and the key there are no keys of a list. -/
theorem exists_just_below {key : String} (h : key ≠ "") (keys : List String) :
    ∃ below, below < key ∧ ∀ k ∈ keys, k < key → ¬below < k := by
  induction keys with
  | nil => exact ⟨"", empty_lt h, by simp⟩
  | cons k rest ih =>
    obtain ⟨below, under, nearest⟩ := ih
    by_cases between : below < k ∧ k < key
    · refine ⟨k, between.2, List.forall_mem_cons.2 ⟨fun _ => String.lt_irrefl k,
        fun l mem low above => ?_⟩⟩
      exact nearest l mem low (String.lt_trans between.1 above)
    · exact ⟨below, under, List.forall_mem_cons.2 ⟨fun low above => between ⟨above, low⟩, nearest⟩⟩

/-- **A page reaches an item** if fewer items than the page holds come before it. -/
theorem mem_take_sort {α : Type} (key : α → String) {items : List α} {a : α} (mem : a ∈ items)
    (only : ∀ b ∈ items, key b = key a → b = a) {size : Nat}
    (few : (sort key items).countP (fun b => key b < key a) < size) :
    a ∈ (sort key items).take size := by
  obtain ⟨before, after, split, first⟩ :=
    List.eq_append_cons_of_mem ((sort_perm key items).mem_iff.2 mem)
  have ascending := pairwise_sort key items
  rw [split, List.pairwise_append] at ascending
  have smaller : ∀ b ∈ before, key b < key a := by
    intro b hb
    refine lt_of_le_of_ne (ascending.2.2 b hb a List.mem_cons_self) fun same => ?_
    have there : b ∈ items := (sort_perm key items).mem_iff.1 (split ▸ List.mem_append_left _ hb)
    exact first (only b there same ▸ hb)
  rw [split, List.countP_append,
    List.countP_eq_length.2 fun b hb => decide_eq_true (smaller b hb)] at few
  obtain ⟨more, rfl⟩ : ∃ more, size = before.length + (more + 1) :=
    ⟨size - before.length - 1, by omega⟩
  rw [split, List.take_length_add_append, List.take_succ_cons]
  exact List.mem_append_right _ List.mem_cons_self

end KeyOrder

namespace Database

variable {db : Database} {cs : List Contract} {c : Contract}

/-- The rows that storing adds can be read back if the contracts are storable. -/
theorem readable_of_store (storable : ∀ d ∈ cs, d.IsStorable) {r : ContractRow}
    (mem : r ∈ (db.store cs).contracts) : r ∈ db.contracts ∨ ∃ d, r.contract = .ok d := by
  obtain ⟨rows, added, stored⟩ := db.store_eq cs
  rw [stored] at mem
  refine (List.mem_append.1 mem).imp_right fun new => ?_
  obtain ⟨-, d, found, rfl⟩ := (added.mem_iff r).1 new
  have sound := storable d (List.mem_of_find?_eq_some found)
  exact ⟨_, ContractRow.contract_ofContract _ sound.named sound.runs⟩

theorem mem_pendingAfter {after : String} {r : ContractRow} :
    r ∈ db.pendingAfter after ↔
      (r ∈ db.contracts ∧ r.status = ContractStatus.pending.label) ∧ after < r.id := by
  rw [pendingAfter, List.mem_mergeSort, List.mem_filter, decide_eq_true_eq, withStatus,
    List.mem_filter, beq_iff_eq]

/-- A page of pending contracts, if every row of it can be read. -/
theorem fetchPending_of_readable {after : String} {limit : Int} (positive : 0 ≤ limit)
    (readable : ∀ r ∈ (db.pendingAfter after).take limit.toNat, ∃ d, r.contract = .ok d) :
    db.fetchPending after limit =
      .ok (((db.pendingAfter after).take limit.toNat).map ContractRow.asContract) := by
  have read : ((db.pendingAfter after).take limit.toNat).mapM ContractRow.contract =
      .ok (((db.pendingAfter after).take limit.toNat).map ContractRow.asContract) := by
    refine mapM_ok fun r mem => ?_
    obtain ⟨d, found⟩ := readable r mem
    rw [ContractRow.asContract, found]
    rfl
  rw [fetchPending, if_neg (by omega), read]
  rfl

theorem asContract_ofContract (cast : TextCast) (h : c.IsStorable) :
    (ContractRow.ofContract cast c).asContract = c.asStored cast := by
  rw [ContractRow.asContract, ContractRow.contract_ofContract cast h.named h.runs]
  rfl

section

variable (first : cs.find? (fun d => d.id = c.id) = some c) (fresh : db.row? c.id = none)

include first fresh

/-- The first contract of a new id has a row after storing, and no other row has this id. -/
theorem mem_store :
    .ofContract db.cast c ∈ (db.store cs).contracts ∧
    ∀ r ∈ (db.store cs).contracts, r.id = c.id → r = .ofContract db.cast c := by
  obtain ⟨rows, added, stored⟩ := db.store_eq cs
  rw [stored]
  refine ⟨List.mem_append_right _ ((added.mem_iff _).2 ⟨fresh, c, first, rfl⟩),
    fun r mem same => ?_⟩
  rcases List.mem_append.1 mem with old | new
  · exact absurd (same ▸ List.mem_map_of_mem old) (row?_eq_none fresh)
  · obtain ⟨-, d, found, rfl⟩ := (added.mem_iff r).1 new
    rw [same, first] at found
    cases found
    rfl

theorem row?_store_of_first : (db.store cs).row? c.id = some (.ofContract db.cast c) := by
  have ⟨there, only⟩ := mem_store first fresh
  cases row : (db.store cs).row? c.id with
  | none => exact absurd (List.mem_map.2 ⟨_, there, rfl⟩) (row?_eq_none row)
  | some r =>
    rw [only r (List.mem_of_find?_eq_some row) (by simpa using List.find?_some row)]

theorem ofContract_mem_page {after : String} {size : Nat} (later : after < c.id)
    (reached : ((db.store cs).pendingAfter after).countP (fun r => r.id < c.id) < size) :
    .ofContract db.cast c ∈ ((db.store cs).pendingAfter after).take size := by
  have ⟨there, only⟩ := mem_store first fresh
  refine KeyOrder.mem_take_sort ContractRow.id ?_ (fun r mem => only r ?_) reached
  · exact List.mem_filter.2 ⟨List.mem_filter.2 ⟨there, rfl⟩, decide_eq_true later⟩
  · exact (List.mem_filter.1 (List.mem_filter.1 mem).1).1

variable (storable : ∀ d ∈ cs, d.IsStorable)

include storable

/-- **The contract is on every page that reaches its id**, if the older rows of the page can be
read. -/
theorem mem_fetchPending_store {after : String} {limit : Int} (later : after < c.id)
    (reached : (((db.store cs).pendingAfter after).countP (fun r => r.id < c.id) : Int) < limit)
    (readable : ∀ r ∈ ((db.store cs).pendingAfter after).take limit.toNat, r ∈ db.contracts →
      ∃ d, r.contract = .ok d) :
    ∃ found, (db.store cs).fetchPending after limit = .ok found ∧ c.asStored db.cast ∈ found := by
  have page : .ofContract db.cast c ∈ ((db.store cs).pendingAfter after).take limit.toNat :=
    ofContract_mem_page first fresh later (by omega)
  have same := asContract_ofContract db.cast (storable c (List.mem_of_find?_eq_some first))
  refine ⟨_, fetchPending_of_readable (by omega) fun r mem => ?_, List.mem_map.2 ⟨_, page, same⟩⟩
  rcases readable_of_store storable (mem_pendingAfter.1 (List.mem_of_mem_take mem)).1.1 with
    old | new
  · exact readable r mem old
  · exact new

/-- Some page holds the contract and nothing else. -/
theorem exists_fetchPending_store :
    ∃ after, (db.store cs).fetchPending after 1 = .ok [c.asStored db.cast] := by
  have sound := storable c (List.mem_of_find?_eq_some first)
  obtain ⟨after, later, nearest⟩ :=
    KeyOrder.exists_just_below sound.named ((db.store cs).contracts.map ContractRow.id)
  have none_before : ((db.store cs).pendingAfter after).countP (fun r => r.id < c.id) = 0 := by
    refine List.countP_eq_zero.2 fun r mem low => ?_
    have ⟨⟨listed, _⟩, above⟩ := mem_pendingAfter.1 mem
    exact nearest r.id (List.mem_map_of_mem listed) (of_decide_eq_true low) above
  have alone : ((db.store cs).pendingAfter after).take 1 = [.ofContract db.cast c] := by
    have page : .ofContract db.cast c ∈ ((db.store cs).pendingAfter after).take 1 :=
      ofContract_mem_page first fresh later (by omega)
    cases rows : (db.store cs).pendingAfter after with
    | nil => simp [rows] at page
    | cons r rest => simpa [rows, eq_comm] using page
  refine ⟨after, ?_⟩
  rw [fetchPending_of_readable (by decide) fun r mem => ?_]
  · rw [Int.toNat_one, alone, List.map_singleton, asContract_ofContract db.cast sound]
  · rw [Int.toNat_one, alone, List.mem_singleton] at mem
    exact mem ▸ ⟨_, ContractRow.contract_ofContract _ sound.named sound.runs⟩

end

/-- **Storing loses nothing.** The first contract of a list under an id that is new is found
afterwards, is pending, and is on every page of pending contracts that reaches its id and whose
older rows can be read; some page holds nothing else. What comes back is the same contract. -/
theorem store_loses_nothing (db : Database) {cs : List Contract}
    (normal : ∀ d ∈ cs, ∃ r : RawRecord, r.normalize = .ok d) {c : Contract}
    (first : cs.find? (fun d => d.id = c.id) = some c) (fresh : db.row? c.id = none) :
    let stored := db.store cs
    ∃ loaded : Contract, loaded.Keeps c ∧
      stored.contract? c.id = .ok (some loaded) ∧
      stored.status? c.id = .ok (some .pending) ∧
      (∀ (after : String) (limit : Int), after < c.id →
        ((stored.pendingAfter after).countP (fun r => r.id < c.id) : Int) < limit →
        (∀ r ∈ (stored.pendingAfter after).take limit.toNat, r ∈ db.contracts →
          ∃ d, r.contract = .ok d) →
        ∃ found, stored.fetchPending after limit = .ok found ∧ loaded ∈ found) ∧
      ∃ after, stored.fetchPending after 1 = .ok [loaded] := by
  intro stored
  have storable : ∀ d ∈ cs, d.IsStorable := by
    intro d mem
    obtain ⟨r, read⟩ := normal d mem
    exact (RawRecord.normalize_isNormal r d read).1.isStorable
  have mem := List.mem_of_find?_eq_some first
  obtain ⟨r, read⟩ := normal c mem
  have row := row?_store_of_first first fresh
  refine ⟨c.asStored db.cast, (RawRecord.normalize_isNormal r c read).1.asStored_keeps _, ?_, ?_,
    fun after limit => mem_fetchPending_store first fresh storable,
    exists_fetchPending_store first fresh storable⟩
  · rw [contract?, row]
    simp only [ContractRow.contract_ofContract _ (storable c mem).named (storable c mem).runs]
    rfl
  · rw [status?, row]
    rfl

/-- Of three contracts the first one, which is also the last one, comes back. -/
theorem store_loses_nothing_vault :
    (∀ d ∈ [Contract.vault, .ofEmptyFolder "A", .vault], ∃ r : RawRecord, r.normalize = .ok d) ∧
    ({} : Database).row? Contract.vault.id = none ∧
    ∃ loaded : Contract, loaded.Keeps .vault ∧
      (({} : Database).store [.vault, .ofEmptyFolder "A", .vault]).contract? Contract.vault.id =
        .ok (some loaded) := by
  have normal : ∀ d ∈ [Contract.vault, .ofEmptyFolder "A", .vault], ∃ r : RawRecord,
      r.normalize = .ok d := by
    simp only [List.forall_mem_cons, List.not_mem_nil, false_implies, implies_true, and_true]
    exact ⟨⟨.vaultFolder, RawRecord.normalize_vaultFolder⟩, ⟨.emptyFolder "A", rfl⟩,
      ⟨.vaultFolder, RawRecord.normalize_vaultFolder⟩⟩
  have first : [Contract.vault, .ofEmptyFolder "A",
      .vault].find? (fun d => d.id = Contract.vault.id) = some .vault := by
    simp
  obtain ⟨loaded, keeps, found, -⟩ := store_loses_nothing {} normal first rfl
  exact ⟨normal, rfl, loaded, keeps, found⟩

end Database

end SelectorCatalog
