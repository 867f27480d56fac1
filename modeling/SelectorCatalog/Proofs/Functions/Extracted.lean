import SelectorCatalog.Functions.Extraction
import SelectorCatalog.Proofs.Steps

/-!
# What extracted functions have in common

The records that are extracted for a contract bear its id, each has the selector of its signature,
and no selector occurs twice (`Extraction.functions_extracted`). The fold over the interface keeps
this entry after entry, and sorting by selectors does not touch it.
-/

set_option autoImplicit false

namespace SelectorCatalog

/-- Records of one contract whose selectors are those of their signatures, each occurring once. -/
structure FunctionRecords (selectorOf : String → String) (contractId : String)
    (records : List FunctionRecord) : Prop where
  owned : ∀ r ∈ records, r.contractId = contractId
  selected : ∀ r ∈ records, r.selector = selectorOf r.signature
  distinct : (records.map FunctionRecord.selector).Nodup

namespace FunctionRecords

variable {selectorOf : String → String} {contractId : String} {records : List FunctionRecord}

theorem nil (selectorOf : String → String) (contractId : String) :
    FunctionRecords selectorOf contractId [] := by
  constructor <;> simp

theorem append (h : FunctionRecords selectorOf contractId records) {r : FunctionRecord}
    (owned : r.contractId = contractId) (selected : r.selector = selectorOf r.signature)
    (fresh : r.selector ∉ records.map FunctionRecord.selector) :
    FunctionRecords selectorOf contractId (records ++ [r]) := by
  refine ⟨?_, ?_, ?_⟩
  · intro s hs
    rcases List.mem_append.1 hs with hs | hs
    · exact h.owned s hs
    · exact List.mem_singleton.1 hs ▸ owned
  · intro s hs
    rcases List.mem_append.1 hs with hs | hs
    · exact h.selected s hs
    · exact List.mem_singleton.1 hs ▸ selected
  · rw [List.map_append, List.map_singleton, List.nodup_append]
    refine ⟨h.distinct, by simp, ?_⟩
    rintro a ha b hb rfl
    exact fresh (List.mem_singleton.1 hb ▸ ha)

theorem perm (h : FunctionRecords selectorOf contractId records) {others : List FunctionRecord}
    (same : others.Perm records) : FunctionRecords selectorOf contractId others where
  owned := fun r hr => h.owned r (same.mem_iff.1 hr)
  selected := fun r hr => h.selected r (same.mem_iff.1 hr)
  distinct := (same.map FunctionRecord.selector).nodup_iff.2 h.distinct

end FunctionRecords

namespace Extraction

theorem recordOf_signature (x : Context) (entry : Value) (signature selector : String) :
    Yields (recordOf x entry signature selector) fun r =>
      r.contractId = x.contractId ∧ r.selector = selector ∧ r.signature = signature := by
  unfold recordOf
  iterate 4 refine .skip fun _ => ?_
  split
  · exact .skip fun _ => .pure ⟨rfl, rfl, rfl⟩
  · exact .pure ⟨rfl, rfl, rfl⟩

theorem addEntry_extracted (x : Context) {records : List FunctionRecord} (entry : Value)
    (h : FunctionRecords x.selectorOf x.contractId records) :
    Yields (addEntry x records entry) (FunctionRecords x.selectorOf x.contractId) := by
  unfold addEntry
  refine .skip fun isFunction => ?_
  split
  · exact .pure h
  refine .skip fun signature => ?_
  have add : Yields (if (records.any fun r => r.selector == x.selectorOf signature) then
      pure records else do
        return records ++ [← Stop.lift (recordOf x entry signature (x.selectorOf signature))] :
        Except (Stop ExtractionFailure) (List FunctionRecord))
      (FunctionRecords x.selectorOf x.contractId) := by
    split
    · exact .pure h
    · rename_i absent
      refine .bind ((recordOf_signature x entry signature _).mapError _) fun r hr => .pure ?_
      refine h.append hr.1 (hr.2.2 ▸ hr.2.1) ?_
      intro taken
      obtain ⟨s, hs, same⟩ := List.mem_map.1 taken
      exact absent (List.any_eq_true.2 ⟨s, hs, by simp [same, hr.2.1]⟩)
  dsimp only
  split
  · split
    · exact .throw _ _
    · exact add
  · exact add

/-- **Extracted functions** bear the id of the contract, have the selectors of their signatures, and
no selector twice. -/
theorem functionsBy_extracted (selectorOf : String → String) (contractId : String) (c : Compilation)
    (name : Option String) :
    Yields (functionsBy selectorOf contractId c name) (FunctionRecords selectorOf contractId) := by
  unfold functionsBy
  iterate 4 refine .skip fun _ => ?_
  refine .bind (Yields.foldlM (fun records entry h => addEntry_extracted _ entry h) _ (.nil _ _)) ?_
  intro records h
  exact .pure (h.perm (List.mergeSort_perm _ _))

end Extraction

end SelectorCatalog
