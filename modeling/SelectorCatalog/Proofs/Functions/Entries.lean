import Mathlib.Data.List.ReduceOption
import SelectorCatalog.Proofs.Functions.Exact

/-!
# What an entry adds

An entry of an interface is no function, has a selector that a record has already, or adds a record
(`addEntry_eq_ok`). Hence the records of an interface are made from the first entries with their
selectors (`foldlM_addEntry_made`), and entries with different selectors are extracted each on its
own (`foldlM_addEntry_apart`).
-/

set_option autoImplicit false

namespace SelectorCatalog

namespace Extraction

open Abi (Declares)

/-- The compiler reports no other selector for a signature. -/
def Context.Agrees (x : Context) (signature : String) : Prop :=
  ∀ reported, Assoc.get? signature x.reported = some reported →
    "0x" ++ reported = x.selectorOf signature

/-- What becomes of the records with one more entry. -/
inductive Adds (x : Context) (records : List FunctionRecord) (entry : Value) :
    List FunctionRecord → Prop
  | other (noFunction : Abi.isFunction entry = .ok false) : Adds x records entry records
  | known {signature : String} (declares : Declares entry signature) (agrees : x.Agrees signature)
      (taken : x.selectorOf signature ∈ records.map FunctionRecord.selector) :
        Adds x records entry records
  | new {signature : String} {r : FunctionRecord} (declares : Declares entry signature)
      (agrees : x.Agrees signature)
        (fresh : x.selectorOf signature ∉ records.map FunctionRecord.selector)
      (made : recordOf x entry signature (x.selectorOf signature) = .ok r) :
        Adds x records entry (records ++ [r])

variable {x : Context} {records found : List FunctionRecord} {entry : Value}

theorem any_selector_iff {selector : String} :
    (records.any fun r => r.selector == selector) = true ↔
      selector ∈ records.map FunctionRecord.selector := by
  simp [List.any_eq_true]

theorem addEntry_adds (x : Context) (records : List FunctionRecord) (entry : Value) :
    Yields (addEntry x records entry) (Adds x records entry) := by
  unfold addEntry
  refine .bind .self fun isFunction function => ?_
  have function := Stop.lift_eq_ok.1 function
  cases isFunction with
  | false => exact .pure (.other function)
  | true =>
    simp only [Bool.not_true, Bool.false_eq_true, if_false]
    refine .bind .self fun signature signed => ?_
    have declares : Declares entry signature := ⟨function, Stop.lift_eq_ok.1 signed⟩
    have rest (agrees : x.Agrees signature) :
        Yields (if (records.any fun r => r.selector == x.selectorOf signature) then pure records
          else do return records ++
            [← Stop.lift (recordOf x entry signature (x.selectorOf signature))] :
          Except (Stop ExtractionFailure) (List FunctionRecord)) (Adds x records entry) := by
      split
      · rename_i taken
        exact .pure (.known declares agrees (any_selector_iff.1 taken))
      · rename_i absent
        exact .bind .self fun r made =>
          .pure (.new declares agrees (mt any_selector_iff.2 absent) (Stop.lift_eq_ok.1 made))
    cases reported : Assoc.get? signature x.reported with
    | none => exact rest fun _ listed => by cases reported.symm.trans listed
    | some digits =>
      dsimp only
      split
      · exact .throw _ _
      · rename_i same
        refine rest fun other listed => ?_
        cases reported.symm.trans listed
        simpa using same

/-- The entry of a function that the compiler does not contradict. -/
theorem addEntry_of_declares {signature : String} (declares : Declares entry signature)
    (agrees : x.Agrees signature) (records : List FunctionRecord) :
    addEntry x records entry =
      if (records.any fun r => r.selector == x.selectorOf signature) then .ok records
      else Stop.lift (recordOf x entry signature (x.selectorOf signature)) >>= fun r =>
        .ok (records ++ [r]) := by
  simp only [addEntry, Stop.lift_eq_ok.2 declares.function, Stop.lift_eq_ok.2 declares.signature,
    ok_bind, Bool.not_true, Bool.false_eq_true, if_false]
  cases reported : Assoc.get? signature x.reported with
  | none => rfl
  | some digits =>
    have same : ("0x" ++ digits != x.selectorOf signature) = false := by
      simpa using agrees digits reported
    simp only [same, Bool.false_eq_true, if_false]
    rfl

/-- **One more entry** is extracted exactly with one of these outcomes. -/
theorem addEntry_eq_ok : addEntry x records entry = .ok found ↔ Adds x records entry found := by
  constructor
  · exact addEntry_adds x records entry found
  · rintro (noFunction | ⟨declares, agrees, taken⟩ | ⟨declares, agrees, fresh, made⟩)
    · simp only [addEntry, Stop.lift_eq_ok.2 noFunction, ok_bind, Bool.not_false, if_true]
      rfl
    · rw [addEntry_of_declares declares agrees, if_pos (any_selector_iff.2 taken)]
    · rw [addEntry_of_declares declares agrees, if_neg (mt any_selector_iff.1 fresh),
        Stop.lift_eq_ok.2 made]
      rfl

/-! ## Records by first entries -/

/-- The records of entries: one for each selector, made from the first entry that has it. -/
structure AreMadeFrom (x : Context) (entries : List Value)
    (records : List FunctionRecord) : Prop where
  complete : ∀ e ∈ entries, ∀ s, Declares e s → x.selectorOf s ∈ records.map FunctionRecord.selector
  made : ∀ r ∈ records, ∃ e, IsFirst (HasSelector x.selectorOf r.selector) entries e ∧
    recordOf x e r.signature r.selector = .ok r

theorem Adds.areMadeFrom {entries : List Value} (h : Adds x records entry found)
    (before : AreMadeFrom x entries records) : AreMadeFrom x (entries ++ [entry]) found := by
  have old : ∀ r ∈ records, ∃ e,
      IsFirst (HasSelector x.selectorOf r.selector) (entries ++ [entry]) e ∧
      recordOf x e r.signature r.selector = .ok r := by
    intro r mem
    obtain ⟨e, first, made⟩ := before.made r mem
    exact ⟨e, first.append _, made⟩
  have complete (more : List FunctionRecord)
      (last : ∀ s, Declares entry s →
        x.selectorOf s ∈ (records ++ more).map FunctionRecord.selector) :
      ∀ e ∈ entries ++ [entry], ∀ s, Declares e s →
        x.selectorOf s ∈ (records ++ more).map FunctionRecord.selector := by
    refine List.forall_mem_append.2 ⟨fun e mem s declares => ?_, by simpa using last⟩
    rw [List.map_append]
    exact List.mem_append_left _ (before.complete e mem s declares)
  cases h with
  | other noFunction =>
    refine ⟨?_, old⟩
    simpa using complete [] fun s declares => by cases noFunction.symm.trans declares.function
  | known declares agrees taken =>
    refine ⟨?_, old⟩
    simpa using complete [] fun s again => by simpa [again.unique declares] using taken
  | @new signature r declares agrees fresh made =>
    obtain ⟨-, selected, signed⟩ := recordOf_signature x entry _ _ r made
    refine ⟨complete [r] fun s again => ?_, List.forall_mem_append.2 ⟨old,
      List.forall_mem_singleton.2 ?_⟩⟩
    · simp [again.unique declares, selected]
    · refine ⟨entry, .last ⟨signature, declares, selected.symm⟩ ?_, by rw [signed, selected, made]⟩
      rintro e mem ⟨s, declares, same⟩
      exact fresh (selected ▸ same ▸ before.complete e mem s declares)

/-- **The records of an interface** are made from the first entries with their selectors. -/
theorem foldlM_addEntry_made (x : Context) (entries : List Value) :
    Yields (entries.foldlM (addEntry x) []) (AreMadeFrom x entries) :=
  Yields.foldlM_from (Q := AreMadeFrom x)
    (fun _ _ _ before _ added => (addEntry_eq_ok.1 added).areMadeFrom before) entries []
    ⟨by simp, by simp⟩

/-! ## Entries with different selectors -/

/-- The functions of two entries have different selectors. -/
def DifferInSelector (selectorOf : String → String) (a b : Value) : Prop :=
  ∀ s t, Declares a s → Declares b t → selectorOf s ≠ selectorOf t

/-- What an entry adds to records that do not have its selector. -/
inductive Extracts (x : Context) (entry : Value) : Option FunctionRecord → Prop
  | other (noFunction : Abi.isFunction entry = .ok false) : Extracts x entry none
  | function {signature : String} {r : FunctionRecord} (declares : Declares entry signature)
      (agrees : x.Agrees signature) (made : recordOf x entry signature (x.selectorOf signature) =
        .ok r) :
      Extracts x entry (some r)

theorem adds_iff_extracts
    (fresh : ∀ s, Declares entry s → x.selectorOf s ∉ records.map FunctionRecord.selector) :
    Adds x records entry found ↔ ∃ r?, Extracts x entry r? ∧ found = records ++ r?.toList := by
  constructor
  · rintro (noFunction | ⟨declares, agrees, taken⟩ | ⟨declares, agrees, -, made⟩)
    · exact ⟨none, .other noFunction, by simp⟩
    · exact absurd taken (fresh _ declares)
    · exact ⟨_, .function declares agrees made, rfl⟩
  · rintro ⟨_, noFunction | ⟨declares, agrees, made⟩, rfl⟩
    · simpa using Adds.other noFunction
    · exact .new declares agrees (fresh _ declares) made

/-- What an entry adds has no selector that differs from its own. -/
theorem Extracts.fresh {r? : Option FunctionRecord} (h : Extracts x entry r?) {next : Value}
    (differ : DifferInSelector x.selectorOf entry next) {s : String} (declares : Declares next s) :
    x.selectorOf s ∉ r?.toList.map FunctionRecord.selector := by
  cases h with
  | other => simp
  | @function signature r declared agrees made =>
    have selected := (recordOf_signature x entry _ _ r made).2.1
    simpa [selected] using (differ _ _ declared declares).symm

/-- Entries whose selectors are different and new add their records in order. -/
theorem foldlM_addEntry_fresh {entries : List Value}
    (apart : entries.Pairwise (DifferInSelector x.selectorOf))
    (fresh : ∀ e ∈ entries, ∀ s, Declares e s →
    x.selectorOf s ∉ records.map FunctionRecord.selector) :
    entries.foldlM (addEntry x) records = .ok found ↔
      ∃ each, List.Forall₂ (Extracts x) entries each ∧ found = records ++ each.reduceOption := by
  induction entries generalizing records with
  | nil => simp [pure, Except.pure, eq_comm]
  | cons e rest ih =>
    obtain ⟨differ, apart⟩ := List.pairwise_cons.1 apart
    obtain ⟨first, others⟩ := List.forall_mem_cons.1 fresh
    have later {r? : Option FunctionRecord} (h : Extracts x e r?) : ∀ f ∈ rest, ∀ s, Declares f s →
        x.selectorOf s ∉ (records ++ r?.toList).map FunctionRecord.selector := by
      intro f mem s declares
      rw [List.map_append, List.mem_append, not_or]
      exact ⟨others f mem s declares, h.fresh (differ f mem) declares⟩
    rw [List.foldlM_cons, bind_eq_ok]
    simp only [addEntry_eq_ok, adds_iff_extracts first]
    constructor
    · rintro ⟨_, ⟨r?, h, rfl⟩, run⟩
      obtain ⟨each, all, rfl⟩ := (ih apart (later h)).1 run
      exact ⟨r? :: each, .cons h all, by cases r? <;> simp [List.reduceOption]⟩
    · rintro ⟨_, ⟨⟩ | ⟨h, all⟩, rfl⟩
      refine ⟨_, ⟨_, h, rfl⟩, (ih apart (later h)).2 ⟨_, all, ?_⟩⟩
      rename_i r? each
      cases r? <;> simp [List.reduceOption]

/-- **Entries with different selectors** are extracted each on its own. -/
theorem foldlM_addEntry_apart {entries : List Value}
    (apart : entries.Pairwise (DifferInSelector x.selectorOf)) :
    entries.foldlM (addEntry x) [] = .ok found ↔
      ∃ each, List.Forall₂ (Extracts x) entries each ∧ found = each.reduceOption := by
  simpa using @foldlM_addEntry_fresh x [] found entries apart (by simp)

/-! ## Extractions -/

/-- What is known while the functions of the named contract of a compilation are extracted. -/
structure Context.IsOf (x : Context) (selectorOf : String → String) (contractId : String)
    (c : Compilation) (name : Option String) : Prop where
  selectorOf : x.selectorOf = selectorOf
  contractId : x.contractId = contractId
  sources : x.sources = c.sources
  primary : findPrimary c name = .ok x.primary
  index : SyntaxIndex.ofContract c.trees x.primary.name x.primary.sourceFile = .ok x.index
  reported : reportedSelectors x.primary = .ok x.reported

/-- **Functions are extracted** exactly if something is known to extract them with, and all entries
are. -/
theorem functionsBy_eq_ok {selectorOf : String → String} {contractId : String} {c : Compilation}
    {name : Option String} : functionsBy selectorOf contractId c name = .ok found ↔
      ∃ x entries records, Context.IsOf x selectorOf contractId c name ∧
        x.primary.abi.parts = .ok entries ∧
        entries.foldlM (addEntry x) [] = .ok records ∧ found = sortRecords records := by
  simp only [functionsBy, bind_eq_ok, Stop.lift_eq_ok, mapError_eq_ok]
  constructor
  · rintro ⟨primary, isPrimary, index, indexed, reported, told, entries, listed, records, run, ⟨⟩⟩
    exact ⟨⟨selectorOf, contractId, primary, c.sources, index, reported⟩, entries, records,
      ⟨rfl, rfl, rfl, isPrimary, indexed, told⟩, listed, run, rfl⟩
  · rintro ⟨⟨_, _, primary, _, index, reported⟩, entries, records,
      ⟨rfl, rfl, rfl, isPrimary, indexed, told⟩, listed, run, rfl⟩
    exact ⟨primary, isPrimary, index, indexed, reported, told, entries, listed, records, run, rfl⟩

/-- The entry of a function of an interface. -/
def functionEntry (name : String) (types : List String) : Value :=
  .object [("type", .text "function"), ("name", .text name),
    ("inputs", .list (types.map fun type => .object [("type", .text type)]))]

end Extraction

end SelectorCatalog
