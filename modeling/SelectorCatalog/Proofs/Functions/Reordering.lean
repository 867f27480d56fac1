import Mathlib.Data.List.Perm.Basic
import SelectorCatalog.Proofs.Functions.Entries
import SelectorCatalog.Proofs.Json.DistinctNames

/-!
# The order of a compiler's output does not matter

Two compilations that differ in the order of their contracts, of the entries of an interface and of
the selectors that are reported (`Compilation.Reorders`) come to the same functions
(`Extraction.functionsBy_reorders_iff`). The contract of a name is the one of the last source in
either (`findPrimary_reorders`), entries with different selectors are extracted each on its own, and
the records are sorted in the end.
-/

set_option autoImplicit false

namespace SelectorCatalog

/-! ## Reordered values -/

/-- The same items in another order, or the same value. -/
inductive Value.ReordersItems : Value → Value → Prop
  | refl (v : Value) : ReordersItems v v
  | items {vs ws : List Value} (same : vs.Perm ws) : ReordersItems (.list vs) (.list ws)

/-- The same members, of different names, in another order, or the same value. -/
inductive Value.ReordersMembers : Value → Value → Prop
  | refl (v : Value) : ReordersMembers v v
  | members {ms ns : List (String × Value)} (distinct : (Assoc.names ms).Nodup)
      (same : ms.Perm ns) :
      ReordersMembers (.object ms) (.object ns)

/-- The same contract with its entries and its reported selectors in another order. -/
structure CompiledContract.Reorders (a b : CompiledContract) : Prop where
  name : a.name = b.name
  sourceFile : a.sourceFile = b.sourceFile
  abi : a.abi.ReordersItems b.abi
  methodIdentifiers : a.methodIdentifiers.ReordersMembers b.methodIdentifiers

/-- The same sources and syntax trees, and the same contracts in another order, each reordered in
itself. -/
structure Compilation.Reorders (c d : Compilation) : Prop where
  sources : c.sources = d.sources
  trees : c.trees = d.trees
  contracts : ∃ middle, c.contracts.Perm middle ∧
    List.Forall₂ CompiledContract.Reorders middle d.contracts

/-- What tells the contracts of a compilation and their functions apart: no two contracts have the
same name and the same source, all sources are among the inputs, and the functions of an interface
have different selectors. -/
structure Compilation.IsApart (selectorOf : String → String) (c : Compilation) : Prop where
  contracts : (c.contracts.map fun a => (a.name, a.sourceFile)).Nodup
  sources : ∀ a ∈ c.contracts, a.sourceFile ∈ Assoc.names c.sources.entries
  functions : ∀ a ∈ c.contracts, ∀ entries, a.abi.parts = .ok entries →
    entries.Pairwise (Extraction.DifferInSelector selectorOf)

/-! ## What reordering keeps -/

namespace Value

variable {v w : Value}

theorem ReordersItems.symm (h : v.ReordersItems w) : w.ReordersItems v := by
  cases h with
  | refl => exact .refl v
  | items same => exact .items same.symm

theorem ReordersItems.parts (h : v.ReordersItems w) {vs : List Value} (listed : v.parts = .ok vs) :
    ∃ ws, w.parts = .ok ws ∧ vs.Perm ws := by
  cases h with
  | refl => exact ⟨vs, listed, .refl vs⟩
  | items same =>
    cases listed
    exact ⟨_, rfl, same⟩

theorem ReordersMembers.symm (h : v.ReordersMembers w) : w.ReordersMembers v := by
  cases h with
  | refl => exact .refl v
  | members distinct same => exact .members ((same.map Prod.fst).nodup_iff.1 distinct) same.symm

end Value

namespace CompiledContract.Reorders

variable {a b : CompiledContract}

theorem symm (h : a.Reorders b) : b.Reorders a :=
  ⟨h.name.symm, h.sourceFile.symm, h.abi.symm, h.methodIdentifiers.symm⟩

end CompiledContract.Reorders

namespace Compilation.Reorders

variable {c d : Compilation}

theorem symm (h : c.Reorders d) : d.Reorders c := by
  obtain ⟨middle, same, each⟩ := h.contracts
  obtain ⟨other, reordered, again⟩ := List.perm_comp_forall₂ same each
  exact ⟨h.sources.symm, h.trees.symm, other, again.symm, reordered.flip.imp fun _ _ r => r.symm⟩

/-- Every contract is there, reordered. -/
theorem counterpart (h : c.Reorders d) {a : CompiledContract} (mem : a ∈ c.contracts) :
    ∃ b ∈ d.contracts, a.Reorders b := by
  obtain ⟨middle, same, each⟩ := h.contracts
  have there := same.mem_iff.1 mem
  clear same
  generalize d.contracts = others at each ⊢
  induction each with
  | nil => cases there
  | cons first _ ih =>
    rcases List.mem_cons.1 there with rfl | later
    · exact ⟨_, List.mem_cons_self, first⟩
    · obtain ⟨b, listed, reordered⟩ := ih later
      exact ⟨b, List.mem_cons_of_mem _ listed, reordered⟩

theorem isApart (h : c.Reorders d) {selectorOf : String → String} (apart : c.IsApart selectorOf) :
    d.IsApart selectorOf where
  contracts := by
    obtain ⟨middle, same, each⟩ := h.contracts
    have keys : middle.map (fun a => (a.name, a.sourceFile)) = d.contracts.map fun a =>
        (a.name, a.sourceFile) := by
      rw [← List.forall₂_eq_eq_eq, List.forall₂_map_left_iff, List.forall₂_map_right_iff]
      exact each.imp fun a b reordered => by rw [reordered.name, reordered.sourceFile]
    rw [← keys]
    exact (same.map _).nodup_iff.1 apart.contracts
  sources b mem := by
    obtain ⟨a, listed, reordered⟩ := h.symm.counterpart mem
    rw [reordered.sourceFile, ← h.sources]
    exact apart.sources a listed
  functions b mem entries listed := by
    obtain ⟨a, there, reordered⟩ := h.symm.counterpart mem
    obtain ⟨others, found, same⟩ := reordered.abi.parts listed
    refine (same.pairwise_iff fun differ s t here there => ?_).2
      (apart.functions a there others found)
    exact (differ t s there here).symm

end Compilation.Reorders

namespace Extraction

/-! ## The contract of a name -/

theorem rank_of_mem {sources : OrderedMap String} {file : String}
    (mem : file ∈ Assoc.names sources.entries) :
    rank sources file = (Assoc.names sources.entries).idxOf file + 1 := by
  unfold rank
  cases found : (Assoc.names sources.entries).idxOf? file with
  | none => exact absurd mem (List.idxOf?_eq_none_iff.1 found)
  | some i => simp [List.idxOf_eq_getD_idxOf?, found]

theorem le_of_lastRanked {rank : String → Nat} {contracts : List CompiledContract}
    {d : CompiledContract} (h : lastRanked rank contracts = some d) :
    ∀ e ∈ contracts, rank e.sourceFile ≤ rank d.sourceFile := by
  induction contracts generalizing d with
  | nil => cases h
  | cons e rest ih =>
    unfold lastRanked at h
    split at h
    · rename_i alone
      cases h
      have empty : rest = [] := Classical.not_not.1 fun some_left =>
        (lastRanked_isSome rank some_left).elim fun f later => by cases alone.symm.trans later
      simp [empty]
    · rename_i f later
      have others := ih later
      split at h
      · rename_i before
        cases h
        exact List.forall_mem_cons.2 ⟨Nat.le_of_lt before, others⟩
      · rename_i after
        cases h
        exact List.forall_mem_cons.2 ⟨Nat.le_refl _,
          fun g mem => Nat.le_trans (others g mem) (Nat.le_of_not_lt after)⟩

/-- A contract is the one in the last source among those of its name. -/
def IsLast (c : Compilation) (a : CompiledContract) : Prop :=
  a ∈ c.contracts ∧ ∀ b ∈ c.contracts, b.name = a.name →
    (Assoc.names c.sources.entries).idxOf b.sourceFile ≤
      (Assoc.names c.sources.entries).idxOf a.sourceFile

variable {selectorOf : String → String} {c d : Compilation} {a b : CompiledContract}
  {name : Option String}

/-- There is one last contract of a name. -/
theorem IsLast.unique (apart : c.IsApart selectorOf) (first : IsLast c a) (second : IsLast c b)
    (same : a.name = b.name) : a = b := by
  have place := Nat.le_antisymm (second.2 a first.1 same) (first.2 b second.1 same.symm)
  have file := (List.idxOf_inj (apart.sources a first.1)).1 place
  exact List.inj_on_of_nodup_map apart.contracts first.1 second.1 (Prod.ext same file)

/-- **The contract of a name** is the one in the last source. -/
theorem findPrimary_eq_ok (apart : c.IsApart selectorOf) :
    findPrimary c name = .ok a ↔ some a.name = name ∧ IsLast c a := by
  have last {a : CompiledContract} (found : findPrimary c name = .ok a) : some a.name = name ∧
      IsLast c a := by
    unfold findPrimary at found
    split at found
    · rename_i e ranked
      cases found
      obtain ⟨mem, named⟩ := List.mem_filter.1 (mem_of_lastRanked ranked)
      have named : some a.name = name := by simpa using named
      refine ⟨named, mem, fun b there same => ?_⟩
      have le := le_of_lastRanked ranked b (List.mem_filter.2 ⟨there, by simpa [same] using named⟩)
      rw [rank_of_mem (apart.sources b there), rank_of_mem (apart.sources a mem)] at le
      exact Nat.le_of_succ_le_succ le
    · cases found
  refine ⟨last, ?_⟩
  rintro ⟨named, isLast⟩
  obtain ⟨b, ranked⟩ := lastRanked_isSome (rank c.sources) (List.ne_nil_of_mem
    (List.mem_filter.2 ⟨isLast.1, by simpa using named⟩ : a ∈ c.contracts.filter fun d =>
    some d.name = name))
  have found : findPrimary c name = .ok b := by rw [findPrimary, ranked]
  obtain ⟨named', isLast'⟩ := last found
  rw [found, isLast'.unique apart isLast (Option.some.inj (named'.trans named.symm))]

theorem IsLast.reorders (h : c.Reorders d) (isLast : IsLast c a) (mem : b ∈ d.contracts)
    (same : a.Reorders b) :
    IsLast d b := by
  refine ⟨mem, fun e there named => ?_⟩
  obtain ⟨f, listed, reordered⟩ := h.symm.counterpart there
  rw [← h.sources, reordered.sourceFile, ← same.sourceFile]
  exact isLast.2 f listed (reordered.name.symm.trans (named.trans same.name.symm))

/-- The contract of a name is the same one after reordering. -/
theorem findPrimary_reorders (h : c.Reorders d) (apart : c.IsApart selectorOf)
    (found : findPrimary c name = .ok a) :
    ∃ b, findPrimary d name = .ok b ∧ a.Reorders b := by
  obtain ⟨named, isLast⟩ := (findPrimary_eq_ok apart).1 found
  obtain ⟨b, mem, same⟩ := h.counterpart isLast.1
  exact ⟨b, (findPrimary_eq_ok (h.isApart apart)).2 ⟨same.name ▸ named,
    isLast.reorders h mem same⟩, same⟩

/-! ## One contract -/

/-- What is reported by signature is the same for a reordered contract. -/
theorem reportedSelectors_reorders {reported : List (String × String)}
    (same : a.methodIdentifiers.ReordersMembers b.methodIdentifiers)
    (told : reportedSelectors a = .ok reported) :
    ∃ others, reportedSelectors b = .ok others ∧
      ∀ signature, Assoc.get? signature others = Assoc.get? signature reported := by
  unfold reportedSelectors at told ⊢
  generalize a.methodIdentifiers = v at same told
  generalize b.methodIdentifiers = w at same ⊢
  cases same with
  | refl => exact ⟨reported, told, fun _ => rfl⟩
  | @members ms ns distinct same =>
    simp only [Value.members, ok_bind] at told ⊢
    have each := mapM_eq_ok.1 told
    obtain ⟨others, again, mixed⟩ := List.perm_comp_forall₂ same.symm each
    have names : Assoc.names ms = Assoc.names reported := by
      rw [Assoc.names, Assoc.names, ← List.forall₂_eq_eq_eq, List.forall₂_map_left_iff,
        List.forall₂_map_right_iff]
      refine each.imp fun m r read => ?_
      obtain ⟨s, -, rest⟩ := bind_eq_ok.1 read
      cases rest
      rfl
    exact ⟨others, mapM_eq_ok.2 again,
      fun signature => (Assoc.get?_of_perm mixed.symm (names ▸ distinct) signature).symm⟩

/-- What an entry adds depends on the contract by its name and source only, and on what is reported
by signature. -/
theorem Extracts.reorders {x : Context} {reported : List (String × String)}
    (names : a.name = x.primary.name) (files : a.sourceFile = x.primary.sourceFile)
    (lookups : ∀ signature, Assoc.get? signature reported = Assoc.get? signature x.reported)
    {entry : Value} {r? : Option FunctionRecord} (h : Extracts x entry r?) :
    Extracts { x with primary := a, reported } entry r? := by
  cases h with
  | other noFunction => exact .other noFunction
  | function declares agrees made =>
    refine .function declares (fun digits found => agrees digits (lookups _ ▸ found)) ?_
    simpa only [recordOf, names, files] using made

/-- **Reordering** keeps what is extracted. -/
theorem functionsBy_of_reorders {contractId : String} {records : List FunctionRecord}
    (h : c.Reorders d) (apart : c.IsApart selectorOf)
    (extracted : functionsBy selectorOf contractId c name = .ok records) :
    functionsBy selectorOf contractId d name = .ok records := by
  obtain ⟨x, entries, found, known, listed, run, rfl⟩ := functionsBy_eq_ok.1 extracted
  obtain ⟨b, primary, same⟩ := findPrimary_reorders h apart known.primary
  obtain ⟨others, listed', reordered⟩ := same.abi.parts listed
  obtain ⟨reported, told, lookups⟩ :=
    reportedSelectors_reorders same.methodIdentifiers known.reported
  have apart_before : entries.Pairwise (DifferInSelector x.selectorOf) := by
    rw [known.selectorOf]
    exact apart.functions x.primary ((findPrimary_eq_ok apart).1 known.primary).2.1 entries listed
  have apart_after : others.Pairwise (DifferInSelector x.selectorOf) :=
    (reordered.pairwise_iff fun differ s t here there =>
      (differ t s there here).symm).1 apart_before
  let y : Context := { x with primary := b, reported }
  obtain ⟨each, all, rfl⟩ := (foldlM_addEntry_apart apart_before).1 run
  obtain ⟨each', all', mixed⟩ := List.perm_comp_forall₂ reordered.symm all
  have run' : others.foldlM (addEntry y) [] = .ok each'.reduceOption := by
    refine (foldlM_addEntry_apart (x := y) apart_after).2 ⟨each', all'.imp fun _ _ one => ?_, rfl⟩
    exact one.reorders same.name.symm same.sourceFile.symm lookups
  have distinct : (each.reduceOption.map FunctionRecord.selector).Nodup :=
    (Yields.foldlM (fun _ entry h => addEntry_extracted x entry h) entries
      (.nil _ _) _ run).distinct
  have sorted : sortRecords each'.reduceOption = sortRecords each.reduceOption :=
    KeyOrder.sort_eq_of_perm FunctionRecord.selector
      ((mixed.filterMap id).trans (KeyOrder.sort_perm _ _).symm)
        (KeyOrder.pairwise_sort_lt distinct)
  have known' : y.IsOf selectorOf contractId d name := by
    refine ⟨known.selectorOf, known.contractId, known.sources.trans h.sources, primary, ?_, told⟩
    show SyntaxIndex.ofContract d.trees b.name b.sourceFile = .ok x.index
    rw [← h.trees, ← same.name, ← same.sourceFile, known.index]
  exact functionsBy_eq_ok.2 ⟨y, others, _, known', listed', run', sorted.symm⟩

/-! ## Any order -/

/-- **The order of a compiler's output does not matter**: reordered compilations come to the same
functions, or to none. Of the contracts of a name the one in the last source counts, as if there
were no others. -/
theorem functionsBy_reorders_iff (selectorOf : String → String) (contractId : String)
    (h : c.Reorders d) (apart : c.IsApart selectorOf) :
    (∀ name records, functionsBy selectorOf contractId c name = .ok records ↔
      functionsBy selectorOf contractId d name = .ok records) ∧
    ∀ b ∈ c.contracts, ∃ a, a.name = b.name ∧ IsLast c a ∧
      functionsBy selectorOf contractId c (some b.name) =
        functionsBy selectorOf contractId { c with contracts := [a] } (some b.name) := by
  refine ⟨fun name records => ⟨functionsBy_of_reorders h apart,
    functionsBy_of_reorders h.symm (h.isApart apart)⟩, fun b mem => ?_⟩
  obtain ⟨a, found, -, named⟩ := findPrimary_gives ⟨b, mem, rfl⟩
  have alone : findPrimary { c with contracts := [a] } (some b.name) = .ok a := by
    simp [findPrimary, lastRanked, named]
  refine ⟨a, named, ((findPrimary_eq_ok apart).1 found).2, ?_⟩
  simp only [functionsBy, found, alone]

/-- The entry of a function. -/
def openEntry : Value := functionEntry "open" []

/-- The entry of another function. -/
def closeEntry : Value := functionEntry "close" []

/-- Two sources declare a contract of one name. -/
def doors : Compilation where
  contractId := "0c"
  compilerVersion := some "0.8.20"
  contracts := [⟨"Door", "a.sol", .list [openEntry], .object []⟩,
    ⟨"Door", "b.sol", .list [openEntry, closeEntry],
      .object [("open()", .text "fcfff16f"), ("close()", .text "43d726d6")]⟩]
  sources := .ofList [("a.sol", "contract Door \x7b\x7d"), ("b.sol", "contract Door \x7b\x7d")]

/-- The same contracts, entries and selectors the other way round. -/
def doorsReversed : Compilation where
  contractId := "0c"
  compilerVersion := some "0.8.20"
  contracts := [⟨"Door", "b.sol", .list [closeEntry, openEntry],
      .object [("close()", .text "43d726d6"), ("open()", .text "fcfff16f")]⟩,
    ⟨"Door", "a.sol", .list [openEntry], .object []⟩]
  sources := .ofList [("a.sol", "contract Door \x7b\x7d"), ("b.sol", "contract Door \x7b\x7d")]

theorem reorders_doors : doors.Reorders doorsReversed := by
  refine ⟨rfl, rfl, _, .swap _ _ _,
    .cons ⟨rfl, rfl, ?_, ?_⟩ (.cons ⟨rfl, rfl, .refl _, .refl _⟩ .nil)⟩
  · exact .items (.swap _ _ _)
  · exact .members (by decide) (.swap _ _ _)

theorem isApart_doors : doors.IsApart (Abi.selectorBy Keccak.digest) := by
  have opens : Abi.Declares openEntry "open()" := ⟨rfl, rfl⟩
  have closes : Abi.Declares closeEntry "close()" := ⟨rfl, rfl⟩
  refine ⟨by decide, by decide, ?_⟩
  simp only [doors, List.forall_mem_cons, List.not_mem_nil, false_implies, implies_true, and_true]
  constructor
  · rintro entries ⟨⟩
    exact List.pairwise_singleton _ _
  · rintro entries ⟨⟩
    refine List.pairwise_pair.2 fun s t first second => ?_
    rw [first.unique opens, second.unique closes]
    decide +kernel

/-- Both orders come to the same functions. -/
theorem functionsBy_reorders_doors :
    ∃ records, functionsBy (Abi.selectorBy Keccak.digest) "0c" doors (some "Door") = .ok records ∧
      functionsBy (Abi.selectorBy Keccak.digest) "0c" doorsReversed (some "Door") =
        .ok records := by
  obtain ⟨records, extracted⟩ :
      Succeeds (functionsBy (Abi.selectorBy Keccak.digest) "0c" doors (some "Door")) :=
    succeeds_of_isOk (by decide +kernel)
  exact ⟨records, extracted,
    ((functionsBy_reorders_iff _ "0c" reorders_doors isApart_doors).1 (some "Door") records).1
      extracted⟩

end Extraction

end SelectorCatalog
