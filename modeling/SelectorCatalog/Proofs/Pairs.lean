import Mathlib.Data.List.Induction
import SelectorCatalog.Proofs.Json.DistinctNames

/-!
# The map of a list of pairs

The map has the names of the pairs in the order in which they first occur
(`OrderedMap.names_ofList`), and under each the value of its last pair (`OrderedMap.get?_ofList`).
-/

set_option autoImplicit false

namespace SelectorCatalog.OrderedMap

variable {α : Type}

theorem ofList_append (pairs : List (String × α)) (p : String × α) :
    ofList (pairs ++ [p]) = (ofList pairs).insert p.1 p.2 := by
  rw [ofList, List.foldl_append]
  rfl

theorem get?_ofList_append (pairs : List (String × α)) (p : String × α) (name : String) :
    (ofList (pairs ++ [p])).get? name = if p.1 = name then some p.2
      else (ofList pairs).get? name := by
  rw [ofList_append]
  split
  · rename_i same
    rw [← same]
    exact get?_insert_self _ _ _
  · rename_i other
    exact get?_insert_of_ne _ (Ne.symm other) _

/-- **The last pair of a name gives its value.** -/
theorem get?_ofList (pairs : List (String × α)) (name : String) :
    (ofList pairs).get? name = Assoc.get? name pairs.reverse := by
  induction pairs using List.reverseRecOn with
  | nil => rfl
  | append_singleton pairs p ih =>
    rw [get?_ofList_append, List.reverse_append, List.reverse_singleton, List.singleton_append, ih]
    rfl

/-- **The names stand where they first occur.** -/
theorem names_ofList (pairs : List (String × α)) :
    Assoc.names (ofList pairs).entries = (Assoc.names pairs).eraseDups := by
  induction pairs using List.reverseRecOn with
  | nil => rfl
  | append_singleton pairs p ih =>
    have names : Assoc.names (pairs ++ [p]) = Assoc.names pairs ++ [p.1] := List.map_append
    rw [ofList_append, insert, Assoc.names_set, ih, names, List.eraseDups_append]
    by_cases there : p.1 ∈ Assoc.names pairs
    · simp [there, List.removeAll]
    · simp [there, List.removeAll, List.eraseDups_cons]

/-- An entry of the map is one of the pairs. -/
theorem mem_of_mem_ofList {pairs : List (String × α)} {e : String × α}
    (mem : e ∈ (ofList pairs).entries) :
    e ∈ pairs := by
  have found : (ofList pairs).get? e.1 = some e.2 :=
    (Assoc.get?_eq_some_iff (ofList pairs).nodup).2 mem
  rw [get?_ofList] at found
  exact List.mem_reverse.1 (Assoc.mem_of_get? found)

end SelectorCatalog.OrderedMap
