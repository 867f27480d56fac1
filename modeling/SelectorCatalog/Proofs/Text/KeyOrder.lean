import Mathlib.Data.List.Nodup
import SelectorCatalog.Assoc

/-!
# Sorting by a text

Members of a document are sorted by name, contracts and outcomes by id. What is sorted by a text
that tells its items apart has one sorted form only (`sort_eq_of_perm`), whatever order it comes in.
-/

set_option autoImplicit false

namespace SelectorCatalog.KeyOrder

variable {α : Type}

/-- The items in ascending order of their keys. -/
def sort (key : α → String) (items : List α) : List α :=
  items.mergeSort fun a b => decide (key a ≤ key b)

theorem sort_perm (key : α → String) (items : List α) : (sort key items).Perm items :=
  List.mergeSort_perm items _

theorem pairwise_sort (key : α → String) (items : List α) :
    (sort key items).Pairwise fun a b => key a ≤ key b := by
  have trans (a b c : α) (hab : decide (key a ≤ key b)) (hbc : decide (key b ≤ key c)) :
      decide (key a ≤ key c) := by
    simp only [decide_eq_true_eq] at hab hbc ⊢
    exact String.le_trans hab hbc
  have total (a b : α) : decide (key a ≤ key b) || decide (key b ≤ key a) := by
    simpa using String.le_total (key a) (key b)
  exact (List.pairwise_mergeSort trans total items).imp of_decide_eq_true

theorem lt_of_le_of_ne {a b : String} (le : a ≤ b) (ne : a ≠ b) : a < b :=
  String.not_le.1 fun ge => ne (String.le_antisymm le ge)

theorem pairwise_sort_lt {key : α → String} {items : List α} (distinct : (items.map key).Nodup) :
    (sort key items).Pairwise fun a b => key a < key b := by
  have names : ((sort key items).map key).Nodup :=
    ((sort_perm key items).map key).nodup_iff.2 distinct
  exact (pairwise_sort key items).imp₂ (fun _ _ => lt_of_le_of_ne) (List.pairwise_map.1 names)

/-- **The sorted form is unique**: a list in ascending order is what sorting gives from any order of
it. -/
theorem sort_eq_of_perm (key : α → String) {items sorted : List α} (perm : items.Perm sorted)
    (ascending : sorted.Pairwise fun a b => key a < key b) : sort key items = sorted := by
  have same := (sort_perm key items).trans perm
  refine List.Perm.eq_of_pairwise ?_ (pairwise_sort key items) (ascending.imp fun h => ?_) same
  · intro a b ha hb hab hba
    have key_eq := String.le_antisymm hab hba
    have mem := same.mem_iff.1 ha
    have distinct : (sorted.map key).Nodup := List.pairwise_map.2 (ascending.imp String.ne_of_lt)
    exact List.inj_on_of_nodup_map distinct mem hb key_eq
  · exact String.not_lt.1 (String.lt_asymm h)

/-- Texts have one sorted form in whatever order they come, also if some are equal. -/
theorem sort_texts_of_perm {texts others : List String} (perm : texts.Perm others) :
    sort id texts = sort id others := by
  have same := (sort_perm id texts).trans (perm.trans (sort_perm id others).symm)
  exact same.eq_of_pairwise (fun a b _ _ => String.le_antisymm) (pairwise_sort id texts)
    (pairwise_sort id others)

theorem map_sort {β : Type} {key : β → String} (f : α → β) (items : List α) :
    (sort (fun a => key (f a)) items).map f = sort key (items.map f) :=
  List.map_mergeSort fun _ _ _ _ => rfl

end SelectorCatalog.KeyOrder
