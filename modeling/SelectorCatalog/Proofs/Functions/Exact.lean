import SelectorCatalog.Contract.Settings
import SelectorCatalog.Proofs.FirstItem
import SelectorCatalog.Proofs.Functions.Extracted
import SelectorCatalog.Proofs.Functions.Interface
import SelectorCatalog.Proofs.Functions.SyntaxShape
import SelectorCatalog.Proofs.Json.DistinctNames
import SelectorCatalog.Proofs.Text.KeyOrder
import SelectorCatalog.Proofs.Text.LowerCase

/-!
# What is extracted is exactly the interface

The functions of a contract are the functions of its interface, one record for each selector, made
from the first entry that has it, unless the compiler reports another selector for one of them
(`Extraction.functionsBy_interface`). What is found after some entries is told by `IsExtraction`:
one more entry keeps it (`addEntry_gives`), so all entries do (`foldlM_addEntry_gives`).
-/

set_option autoImplicit false

namespace SelectorCatalog

/-! ## Interfaces -/

/-- The digits of the selector of a signature. -/
def Abi.selectorDigits (digest : List UInt8 → List UInt8) (signature : String) : String :=
  Text.hexBytes ((digest (Text.utf8 signature.toList)).take 4)

/-- The interface of a compiled contract: its entries, and the selectors that the compiler
reports. -/
structure CompiledContract.HasInterface (d : CompiledContract) (entries : List Value)
    (identifiers : OrderedMap String) : Prop where
  listed : d.abi.parts = .ok entries
  wellFormed : ∀ e ∈ entries, Abi.IsEntry e
  reported : d.methodIdentifiers = .ofTexts identifiers

namespace Extraction

open Abi (Declares IsEntry selectorBy selectorDigits)

/-- The compiler reports another selector for the function of an entry, upper and lower case
aside. -/
structure Conflicts (digest : List UInt8 → List UInt8) (identifiers : OrderedMap String)
    (entry : Value) (signature reported : String) : Prop where
  declares : Declares entry signature
  listed : identifiers.get? signature = some reported
  differs : Text.lower reported ≠ Text.lower (selectorDigits digest signature)

/-- The function of an entry has a selector. -/
def HasSelector (selectorOf : String → String) (selector : String) (entry : Value) : Prop :=
  ∃ signature, Declares entry signature ∧ selectorOf signature = selector

/-- A record tells what an entry does. -/
structure Tells (r : FunctionRecord) (entry : Value) : Prop where
  signature : Declares entry r.signature
  functionName : entry.required "name" = .ok r.functionName
  mutability : Abi.mutability entry = .ok r.mutability

/-- The records after some entries: one for each selector, made from the first entry that has it. -/
structure IsExtraction (x : Context) (entries : List Value) (records : List FunctionRecord) : Prop
    extends FunctionRecords x.selectorOf x.contractId records where
  complete : ∀ e ∈ entries, ∀ s, Declares e s → x.selectorOf s ∈ records.map FunctionRecord.selector
  named : ∀ r ∈ records, r.contractName = .text x.primary.name
  first : ∀ r ∈ records, ∃ e, IsFirst (HasSelector x.selectorOf r.selector) entries e ∧ Tells r e

/-- What is known for a contract whose compiler reports the selectors of `identifiers`. -/
structure Context.IsFor (x : Context) (digest : List UInt8 → List UInt8)
    (identifiers : OrderedMap String) : Prop where
  selectorOf : x.selectorOf = selectorBy digest
  reported : ∀ s, Assoc.get? s x.reported = (identifiers.get? s).map Text.lower
  index : x.index.IsSound

/-! ## One entry -/

section

variable {x : Context} {digest : List UInt8 → List UInt8} {identifiers : OrderedMap String}
  {entries : List Value} {records : List FunctionRecord} {entry : Value}

theorem isExtraction_nil (x : Context) : IsExtraction x [] [] where
  toFunctionRecords := .nil _ _
  complete := by simp
  named := by simp
  first := by simp

/-- An entry that adds no record. -/
theorem IsExtraction.skip (h : IsExtraction x entries records)
    (known : ∀ s, Declares entry s → x.selectorOf s ∈ records.map FunctionRecord.selector) :
    IsExtraction x (entries ++ [entry]) records where
  toFunctionRecords := h.toFunctionRecords
  complete := by
    intro e mem s declares
    rcases List.mem_append.1 mem with old | new
    · exact h.complete e old s declares
    · obtain rfl := List.mem_singleton.1 new
      exact known s declares
  named := h.named
  first := fun r mem => (h.first r mem).imp fun _ found => ⟨found.1.append _, found.2⟩

/-- An entry whose selector is new. -/
theorem IsExtraction.add (h : IsExtraction x entries records) {r : FunctionRecord}
    (tells : Tells r entry) (owned : r.contractId = x.contractId)
    (selected : r.selector = x.selectorOf r.signature)
    (named : r.contractName = .text x.primary.name)
    (fresh : r.selector ∉ records.map FunctionRecord.selector) :
    IsExtraction x (entries ++ [entry]) (records ++ [r]) where
  toFunctionRecords := h.toFunctionRecords.append owned selected fresh
  complete := by
    intro e mem s declares
    rw [List.map_append, List.mem_append]
    rcases List.mem_append.1 mem with old | new
    · exact .inl (h.complete e old s declares)
    · obtain rfl := List.mem_singleton.1 new
      rw [tells.signature.unique declares] at selected
      exact .inr (by simp [selected])
  named := List.forall_mem_append.2 ⟨h.named, by simpa using named⟩
  first := by
    refine List.forall_mem_append.2
      ⟨fun r mem => (h.first r mem).imp fun _ found => ⟨found.1.append _, found.2⟩, ?_⟩
    rw [List.forall_mem_singleton]
    refine ⟨entry, .last ⟨_, tells.signature, selected.symm⟩ ?_, tells⟩
    rintro e mem ⟨s, declares, same⟩
    exact fresh (same ▸ h.complete e mem s declares)

theorem recordOf_gives (sound : x.index.IsSound) {ms : List (String × Value)}
    (h : Abi.IsFunctionEntry ms) {signature : String} (declares : Declares (.object ms) signature)
    (selector : String) :
    Gives (recordOf x (.object ms) signature selector) fun r =>
      Tells r (.object ms) ∧ r.signature = signature ∧ r.selector = selector ∧
        r.contractId = x.contractId ∧
        r.contractName = .text x.primary.name := by
  obtain ⟨name, named⟩ := h.required_name
  obtain ⟨arity, counted⟩ := h.succeeds_parameterCount
  obtain ⟨mutability, known⟩ := h.succeeds_mutability
  unfold recordOf
  rw [named, counted, known]
  simp only [ok_bind]
  refine .bind (sound.lookup_gives selector name arity) fun d? found => ?_
  cases d? with
  | none => exact .pure ⟨⟨declares, named, known⟩, rfl, rfl, rfl, rfl⟩
  | some d =>
    obtain ⟨text, cut⟩ := succeeds_sliceSource x.sources d.sourceFile (found d rfl).range
    simp only [cut, ok_bind]
    exact .pure ⟨⟨declares, named, known⟩, rfl, rfl, rfl, rfl⟩

/-- Both sides of the comparison are in lower case. -/
theorem ne_selectorBy_iff {signature reported : String} :
    ("0x" ++ Text.lower reported != selectorBy digest signature) = true ↔
      Text.lower reported ≠ Text.lower (selectorDigits digest signature) := by
  rw [selectorDigits, Text.lower_hexBytes, bne_iff_ne, selectorBy, Ne, String.append_right_inj]

/-- An entry that the compiler contradicts ends the extraction. -/
theorem addEntry_conflict (about : x.IsFor digest identifiers) {signature reported : String}
    (h : Conflicts digest identifiers entry signature reported) (records : List FunctionRecord) :
    addEntry x records entry = .error (.failure
      (.selectorMismatch x.contractId signature (selectorBy digest signature)
        (Text.lower reported))) := by
  have listed : Assoc.get? signature x.reported = some (Text.lower reported) := by
    rw [about.reported, h.listed, Option.map_some]
  have differs := ne_selectorBy_iff.2 h.differs
  rw [← about.selectorOf] at differs ⊢
  simp only [addEntry, h.declares.function, h.declares.signature, Stop.lift, Except.mapError,
    ok_bind, listed, differs, if_true, Bool.not_true, Bool.false_eq_true, if_false]
  rfl

/-- **One more entry** that the compiler does not contradict is extracted. -/
theorem addEntry_gives (about : x.IsFor digest identifiers) (h : IsExtraction x entries records)
    (wellFormed : IsEntry entry) (agrees : ∀ s r, ¬Conflicts digest identifiers entry s r) :
    Gives (addEntry x records entry) (IsExtraction x (entries ++ [entry])) := by
  obtain other | ⟨ms, signature, rfl, shape, declares⟩ := wellFormed.cases
  · have unchanged : addEntry x records entry = .ok records := by
      simp only [addEntry, other, Stop.lift, Except.mapError, ok_bind, Bool.not_false, if_true]
      rfl
    rw [unchanged]
    exact .ok (h.skip fun s declares => by cases other.symm.trans declares.function)
  · have added : Gives (if (records.any fun r => r.selector == x.selectorOf signature) then
        pure records
        else do return records ++
          [← Stop.lift (recordOf x (.object ms) signature (x.selectorOf signature))] :
        Except (Stop ExtractionFailure) (List FunctionRecord))
          (IsExtraction x (entries ++ [.object ms])) := by
      split
      · rename_i taken
        obtain ⟨r, mem, same⟩ := List.any_eq_true.1 taken
        refine .pure (h.skip fun s again => ?_)
        rw [again.unique declares]
        exact List.mem_map.2 ⟨r, mem, by simpa using same⟩
      · rename_i absent
        refine .bind ((recordOf_gives about.index shape declares _).mapError _) ?_
        rintro r ⟨tells, rfl, selected, owned, named⟩
        refine .pure (h.add tells owned selected named fun taken => absent ?_)
        obtain ⟨s, mem, same⟩ := List.mem_map.1 taken
        exact List.any_eq_true.2 ⟨s, mem, by simp [same, selected]⟩
    simp only [addEntry, declares.function, declares.signature, Stop.lift, Except.mapError, ok_bind,
      Bool.not_true, Bool.false_eq_true, if_false, about.reported]
    cases listed : identifiers.get? signature with
    | none => exact added
    | some reported =>
      have same : ("0x" ++ Text.lower reported != x.selectorOf signature) = false := by
        rw [← Bool.not_eq_true, about.selectorOf, ne_selectorBy_iff]
        exact fun differs => agrees _ _ ⟨declares, listed, differs⟩
      simp only [Option.map_some, same, Bool.false_eq_true, if_false]
      exact added

/-! ## All entries -/

/-- **Entries that the compiler does not contradict** are all extracted. -/
theorem foldlM_addEntry_gives (about : x.IsFor digest identifiers) {more : List Value}
    (wellFormed : ∀ e ∈ more, IsEntry e)
    (agrees : ∀ e ∈ more, ∀ s r, ¬Conflicts digest identifiers e s r)
    (h : IsExtraction x entries records) :
    Gives (more.foldlM (addEntry x) records) (IsExtraction x (entries ++ more)) := by
  induction more generalizing entries records with
  | nil => exact .pure (by simpa using h)
  | cons e rest ih =>
    have ⟨first, others⟩ := List.forall_mem_cons.1 wellFormed
    have ⟨agree, agrees⟩ := List.forall_mem_cons.1 agrees
    rw [List.foldlM_cons]
    refine .bind (addEntry_gives about h first agree) fun found extracted => ?_
    exact (ih others agrees extracted).imp fun _ => by simp

/-- The first entry that the compiler contradicts ends the extraction. -/
theorem foldlM_addEntry_conflict (about : x.IsFor digest identifiers) {signature reported : String}
    (wellFormed : ∀ e ∈ entries, IsEntry e)
    (first : IsFirst (fun e => ∃ s r, Conflicts digest identifiers e s r) entries entry)
    (h : Conflicts digest identifiers entry signature reported) :
    entries.foldlM (addEntry x) [] = .error (.failure
      (.selectorMismatch x.contractId signature (selectorBy digest signature)
        (Text.lower reported))) := by
  obtain ⟨before, after, rfl, -, fresh⟩ := first
  obtain ⟨found, extracted, -⟩ := foldlM_addEntry_gives about
    (fun e mem => wellFormed e (List.mem_append_left _ mem))
    (fun e mem s r conflict => fresh e mem ⟨s, r, conflict⟩) (isExtraction_nil x)
  rw [List.foldlM_append, extracted, ok_bind, List.foldlM_cons, addEntry_conflict about h]
  rfl

/-- Sorting by selectors keeps what the records tell. -/
theorem IsExtraction.sortRecords (h : IsExtraction x entries records) :
    IsExtraction x entries (sortRecords records) ∧
      (Extraction.sortRecords records).Pairwise fun a b => a.selector < b.selector := by
  have same : (Extraction.sortRecords records).Perm records := List.mergeSort_perm _ _
  refine ⟨⟨h.toFunctionRecords.perm same, fun e mem s declares => ?_,
    fun r mem => h.named r (same.mem_iff.1 mem), fun r mem => h.first r (same.mem_iff.1 mem)⟩,
    KeyOrder.pairwise_sort_lt h.distinct⟩
  exact (same.map FunctionRecord.selector).mem_iff.2 (h.complete e mem s declares)

/-- **The selectors of the records are exactly those of the entries.** -/
theorem IsExtraction.mem_selectors (h : IsExtraction x entries records) {selector : String} :
    selector ∈ records.map FunctionRecord.selector ↔
      ∃ e ∈ entries, HasSelector x.selectorOf selector e := by
  constructor
  · intro mem
    obtain ⟨r, there, rfl⟩ := List.mem_map.1 mem
    obtain ⟨e, first, -⟩ := h.first r there
    exact ⟨e, first.mem, first.holds⟩
  · rintro ⟨e, mem, s, declares, rfl⟩
    exact h.complete e mem s declares

end

/-! ## Whole contracts -/

theorem lastRanked_isSome (rank : String → Nat) {contracts : List CompiledContract}
    (some_left : contracts ≠ []) : ∃ d, lastRanked rank contracts = some d := by
  cases contracts with
  | nil => exact absurd rfl some_left
  | cons d rest =>
    unfold lastRanked
    split
    · exact ⟨_, rfl⟩
    · split <;> exact ⟨_, rfl⟩

theorem mem_of_lastRanked {rank : String → Nat} {contracts : List CompiledContract}
    {d : CompiledContract} (h : lastRanked rank contracts = some d) : d ∈ contracts := by
  induction contracts with
  | nil => cases h
  | cons e rest ih =>
    unfold lastRanked at h
    split at h
    · cases h
      exact List.mem_cons_self
    · rename_i f later
      split at h
      · cases h
        exact List.mem_cons_of_mem _ (ih later)
      · cases h
        exact List.mem_cons_self

/-- **A contract of a name is found if there is one.** -/
theorem findPrimary_gives {c : Compilation} {name : String}
    (there : ∃ d ∈ c.contracts, d.name = name) :
    Gives (findPrimary c (some name)) fun d => d ∈ c.contracts ∧ d.name = name := by
  obtain ⟨d, mem, named⟩ := there
  obtain ⟨last, found⟩ := lastRanked_isSome (rank c.sources)
    (List.ne_nil_of_mem (List.mem_filter.2 ⟨mem, by simp [named]⟩ :
      d ∈ c.contracts.filter fun d => some d.name = some name))
  have listed := List.mem_filter.1 (mem_of_lastRanked found)
  rw [findPrimary, found]
  exact .ok ⟨listed.1, by simpa using listed.2⟩

theorem reportedSelectors_ofTexts {d : CompiledContract} {identifiers : OrderedMap String}
    (reported : d.methodIdentifiers = .ofTexts identifiers) :
    reportedSelectors d = .ok (identifiers.entries.map fun m => (m.1, Text.lower m.2)) := by
  rw [reportedSelectors, reported, Value.ofTexts, Value.members, ok_bind, List.mapM_map]
  exact mapM_ok fun m _ => rfl

/-- **What is extracted is exactly the interface.** If the compiler reports another selector for the
function of some entry, the extraction ends with the first such entry. Otherwise it gives records in
strictly ascending order of selectors; their selectors are those of the function entries, and each
record tells what the first entry with its selector does. -/
theorem functionsBy_interface (digest : List UInt8 → List UInt8) (contractId : String)
    {c : Compilation} {name : String} (there : ∃ d ∈ c.contracts, d.name = name)
    {entries : List Value} {identifiers : OrderedMap String}
    (interface : ∀ d, findPrimary c (some name) = .ok d → d.HasInterface entries identifiers)
    (trees : ∀ tree ∈ c.trees.entries, IsSyntaxTree tree.2) :
    ((∃ e ∈ entries, ∃ s r, Conflicts digest identifiers e s r) →
      ∃ e s r, IsFirst (fun e => ∃ s r, Conflicts digest identifiers e s r) entries e ∧
        Conflicts digest identifiers e s r ∧
        functionsBy (selectorBy digest) contractId c (some name) = .error (.failure
          (.selectorMismatch contractId s (selectorBy digest s) (Text.lower r)))) ∧
    ((∀ e ∈ entries, ∀ s r, ¬Conflicts digest identifiers e s r) →
      ∃ records, functionsBy (selectorBy digest) contractId c (some name) = .ok records ∧
        records.Pairwise (fun a b => a.selector < b.selector) ∧
        (∀ selector, selector ∈ records.map FunctionRecord.selector ↔
          ∃ e ∈ entries, HasSelector (selectorBy digest) selector e) ∧
        ∀ r ∈ records, r.contractId = contractId ∧ r.contractName = .text name ∧
          ∃ e, IsFirst (HasSelector (selectorBy digest) r.selector) entries e ∧ Tells r e) := by
  obtain ⟨primary, found, -, named⟩ := findPrimary_gives there
  obtain ⟨listed, wellFormed, reported⟩ := interface primary found
  obtain ⟨index, indexed, sound⟩ :=
    SyntaxIndex.ofContract_gives trees primary.name primary.sourceFile
  let x : Context := ⟨selectorBy digest, contractId, primary, c.sources, index,
    identifiers.entries.map fun m => (m.1, Text.lower m.2)⟩
  have about : x.IsFor digest identifiers :=
    ⟨rfl, fun s => Assoc.get?_map Text.lower s identifiers.entries, sound⟩
  have run : functionsBy (selectorBy digest) contractId c (some name) =
      (entries.foldlM (addEntry x) [] >>= fun records => pure (sortRecords records)) := by
    simp only [functionsBy, found, Except.mapError, ok_bind, Stop.lift, indexed, listed,
      reportedSelectors_ofTexts reported, x]
  rw [run]
  constructor
  · intro some_conflict
    obtain ⟨e, first⟩ := exists_isFirst some_conflict
    obtain ⟨s, r, conflict⟩ := first.holds
    refine ⟨e, s, r, first, conflict, ?_⟩
    rw [foldlM_addEntry_conflict about wellFormed first conflict]
    rfl
  · intro agrees
    obtain ⟨records, extracted, all⟩ :=
      foldlM_addEntry_gives about wellFormed agrees (isExtraction_nil x)
    obtain ⟨sorted, ascending⟩ := all.sortRecords
    rw [extracted, ok_bind]
    refine ⟨_, rfl, ascending, fun selector => sorted.mem_selectors,
      fun r mem => ⟨sorted.owned r mem, ?_, ?_⟩⟩
    · rw [sorted.named r mem, ← named]
    · exact sorted.first r mem

/-! ## A contract with one function -/

/-- The entry of a function of two parameters. -/
def transferEntry : Value :=
  .object [("type", .text "function"), ("name", .text "transfer"),
    ("inputs", .list [.object [("type", .text "address")], .object [("type", .text "uint256")]]),
    ("stateMutability", .text "nonpayable")]

/-- The syntax tree of a source that declares the function. -/
def transferTree : Value :=
  .object [("nodeType", .text "SourceUnit"), ("nodes", .list [
    .object [("nodeType", .text "ContractDefinition"), ("id", .int 1), ("name", .text "Token"),
      ("linearizedBaseContracts", .list [.int 1]), ("nodes", .list [
        .object [("nodeType", .text "FunctionDefinition"), ("name", .text "transfer"),
          ("visibility", .text "public"), ("functionSelector", .text "a9059cbb"),
          ("src", .text "17:8"),
          ("parameters", .object [("parameters", .list [.null, .null])])]])]])]

/-- A compilation of this source. The compiler reports the selector in capitals. -/
def transferOnly : Compilation where
  contractId := "0a"
  compilerVersion := some "0.8.20"
  contracts := [⟨"Token", "token.sol", .list [.object [("type", .text "event")], transferEntry],
    .ofTexts (.ofList [("transfer(address,uint256)", "A9059CBB")])⟩]
  trees := .ofList [("token.sol", transferTree)]
  sources := .ofList [("token.sol", "contract Token \x7bfunction\x7d")]

theorem declares_transfer : Declares transferEntry "transfer(address,uint256)" := ⟨rfl, rfl⟩

theorem selectorDigits_transfer :
    selectorDigits Keccak.digest "transfer(address,uint256)" = "a9059cbb" := by
  decide +kernel

theorem isEntry_transfer :
    ∀ e ∈ [Value.object [("type", .text "event")], transferEntry], IsEntry e := by
  have address : Abi.IsParameter (.object [("type", .text "address")]) := .plain rfl rfl
  have amount : Abi.IsParameter (.object [("type", .text "uint256")]) := .plain rfl rfl
  simp only [List.forall_mem_cons, List.not_mem_nil, false_implies, implies_true, and_true]
  refine ⟨⟨_, rfl, fun named => by cases named⟩, _, rfl,
    fun _ => ⟨⟨_, rfl⟩, ⟨_, rfl, ?_⟩, fun _ => ?_⟩⟩
  · simpa using ⟨address, amount⟩
  · exact ⟨.nonpayable, rfl⟩

theorem isSyntaxTree_transfer : IsSyntaxTree transferTree := by
  refine ⟨_, rfl, fun _ => ⟨_, rfl, ?_⟩⟩
  rw [List.forall_mem_singleton]
  refine ⟨_, rfl, fun _ => ⟨⟨_, rfl⟩, ⟨_, rfl⟩, ⟨_, rfl, ?_⟩, ?_⟩⟩
  · rw [List.forall_mem_singleton]
    exact ⟨_, rfl, fun _ => ⟨⟨_, rfl⟩, ⟨some _, rfl⟩, ⟨some _, rfl⟩, _, _, rfl, rfl⟩⟩
  · rintro v ⟨⟩
    exact ⟨[1], rfl⟩

/-- The one function is extracted, although the interface has an event before it. -/
theorem functionsBy_interface_transferOnly :
    ∃ records, functionsBy (selectorBy Keccak.digest) "0a" transferOnly (some "Token") =
      .ok records ∧
      "0xa9059cbb" ∈ records.map FunctionRecord.selector := by
  have there : ∃ d ∈ transferOnly.contracts, d.name = "Token" := ⟨_, List.mem_cons_self, rfl⟩
  have interface : ∀ d, findPrimary transferOnly (some "Token") = .ok d →
      d.HasInterface [.object [("type", .text "event")], transferEntry]
        (.ofList [("transfer(address,uint256)", "A9059CBB")]) := by
    rintro d ⟨⟩
    exact ⟨rfl, isEntry_transfer, rfl⟩
  have trees : ∀ tree ∈ transferOnly.trees.entries, IsSyntaxTree tree.2 := by
    show ∀ tree ∈ [("token.sol", transferTree)], IsSyntaxTree tree.2
    simpa using isSyntaxTree_transfer
  have agrees : ∀ e ∈ [Value.object [("type", .text "event")], transferEntry], ∀ s r,
      ¬Conflicts Keccak.digest (.ofList [("transfer(address,uint256)", "A9059CBB")]) e s r := by
    simp only [List.forall_mem_cons, List.not_mem_nil, false_implies, implies_true, and_true]
    refine ⟨fun s r conflict => ?_, fun s r conflict => ?_⟩
    · cases conflict.declares.function
    · obtain rfl := conflict.declares.unique declares_transfer
      cases conflict.listed
      refine conflict.differs ?_
      rw [selectorDigits_transfer]
      decide +kernel
  obtain ⟨records, extracted, -, selectors, -⟩ :=
    (functionsBy_interface Keccak.digest "0a" there interface trees).2 agrees
  refine ⟨records, extracted, (selectors _).2 ⟨transferEntry, by simp, _, declares_transfer, ?_⟩⟩
  rw [selectorBy, ← selectorDigits, selectorDigits_transfer]
  rfl

end Extraction

end SelectorCatalog
