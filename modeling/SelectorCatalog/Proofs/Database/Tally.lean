import SelectorCatalog.Database.Basic
import SelectorCatalog.Proofs.Pairs

/-!
# Tallies and maps of numbers

A tally has every value of a list with the number of its occurrences (`Database.mem_tally`). What
becomes of its numbers in a map depends on the names: numbers under different names stay
(`OrderedMap.get?_foldl_insert`), and of numbers in descending order the least one of a name stays
(`OrderedMap.get?_ofList_descending`).
-/

set_option autoImplicit false

namespace SelectorCatalog

/-! ## Tallies -/

namespace Database

section Tally

variable {α : Type} [DecidableEq α]

/-- **A tally has every value with the number of its occurrences.** -/
theorem mem_tally {l : List α} {e : α × Nat} :
    e ∈ tally l ↔ e.1 ∈ l ∧ e.2 = l.countP fun b => b = e.1 := by
  induction l with
  | nil => simp [tally]
  | cons a rest ih =>
    obtain ⟨b, n⟩ := e
    rw [tally, List.mem_cons, List.mem_filter, ih]
    by_cases same : b = a
    · subst same
      have number : rest.count b = rest.countP fun c => c = b := rfl
      simp [number]
    · simp [same, List.countP_cons_of_neg, Ne.symm same]

theorem nodup_tally (l : List α) : ((tally l).map Prod.fst).Nodup := by
  induction l with
  | nil => exact List.nodup_nil
  | cons a rest ih =>
    rw [tally, List.map_cons, List.nodup_cons]
    refine ⟨?_, ih.sublist (List.filter_sublist.map _)⟩
    simp [List.mem_map]

end Tally

/-- A number as a map has it: only what occurs has an entry. -/
def counted (n : Nat) : Option Nat := if n = 0 then none else some n

@[simp] theorem getD_counted (n : Nat) : (counted n).getD 0 = n := by
  unfold counted
  split <;> simp_all

theorem counted_of_pos {n : Nat} (positive : 0 < n) :
    counted n = some n := if_neg (Nat.ne_of_gt positive)

theorem get?_tally (l : List String) (name : String) :
    Assoc.get? name (tally l) = counted (l.countP fun s => s = name) := by
  by_cases occurs : name ∈ l
  · have positive : 0 < l.countP fun s => s = name := List.countP_pos_iff.2 ⟨name, occurs, by simp⟩
    rw [counted_of_pos positive, Assoc.get?_eq_some_iff (nodup_tally l), mem_tally]
    exact ⟨occurs, rfl⟩
  · have absent : Assoc.get? name (tally l) = none := by
      rw [Option.eq_none_iff_forall_ne_some]
      exact fun n found => occurs (mem_tally.1 (Assoc.mem_of_get? found)).1
    have never : l.countP (fun s => s = name) = 0 := by
      rw [List.countP_eq_zero]
      intro s mem same
      exact occurs (of_decide_eq_true same ▸ mem)
    rw [absent, never]
    rfl

end Database

/-! ## Maps of numbers -/

namespace OrderedMap

/-- Of pairs in descending order of numbers the least one of a name counts. -/
theorem get?_ofList_descending {pairs : List (String × Nat)}
    (descending : pairs.Pairwise fun p q => q.2 ≤ p.2) {name : String} {n : Nat} :
    (ofList pairs).get? name = some n ↔ (name, n) ∈ pairs ∧ ∀ m, (name, m) ∈ pairs → n ≤ m := by
  induction pairs using List.reverseRecOn with
  | nil => simp [ofList, get?, empty, Assoc.get?]
  | append_singleton pairs p ih =>
    obtain ⟨key, least⟩ := p
    obtain ⟨before, -, above⟩ := List.pairwise_append.1 descending
    have above : ∀ q ∈ pairs, least ≤ q.2 := fun q hq => above q hq _ (List.mem_singleton.2 rfl)
    rw [get?_ofList_append]
    by_cases own : key = name
    · subst own
      simp only [if_true, Option.some.injEq, List.mem_append, List.mem_singleton, Prod.mk.injEq,
        true_and]
      constructor
      · rintro rfl
        exact ⟨.inr rfl,
          fun m mem => mem.elim (fun old => above _ old) (fun new => Nat.le_of_eq new.symm)⟩
      · rintro ⟨old | new, lowest⟩
        · exact Nat.le_antisymm (above _ old) (lowest least (.inr rfl))
        · exact new.symm
    · simp [own, Ne.symm own, ih before]

/-- Setting the numbers of names that are there keeps the names and their order. -/
theorem names_foldl_insert {pairs : List (String × Nat)} {m : OrderedMap Nat}
    (there : ∀ p ∈ pairs, p.1 ∈ Assoc.names m.entries) :
    Assoc.names (pairs.foldl (fun m p => m.insert p.1 p.2) m).entries = Assoc.names m.entries := by
  induction pairs generalizing m with
  | nil => rfl
  | cons p rest ih =>
    obtain ⟨first, others⟩ := List.forall_mem_cons.1 there
    have kept : Assoc.names (m.insert p.1 p.2).entries = Assoc.names m.entries := by
      rw [insert, Assoc.names_set, if_pos first]
    rw [List.foldl_cons, ih (kept ▸ others), kept]

theorem get?_foldl_insert {pairs : List (String × Nat)} (distinct : (Assoc.names pairs).Nodup)
    (m : OrderedMap Nat) (name : String) :
    (pairs.foldl (fun m p => m.insert p.1 p.2) m).get? name =
      (Assoc.get? name pairs).or (m.get? name) := by
  induction pairs generalizing m with
  | nil => rfl
  | cons p rest ih =>
    obtain ⟨key, n⟩ := p
    have parts := List.nodup_cons.1 distinct
    rw [List.foldl_cons, ih parts.2, Assoc.get?]
    by_cases own : key = name
    · subst own
      have absent : Assoc.get? key rest = none := by
        rw [Option.eq_none_iff_forall_ne_some]
        exact fun v found => parts.1 (List.mem_map.2 ⟨(key, v), Assoc.mem_of_get? found, rfl⟩)
      rw [absent, if_pos rfl, get?_insert_self]
      rfl
    · rw [if_neg own, get?_insert_of_ne _ (Ne.symm own)]

/-- A map is told by its names in order and what it has under them. -/
theorem entries_eq_map (m : OrderedMap Nat) :
    m.entries = (Assoc.names m.entries).map fun name => (name, (m.get? name).getD 0) := by
  have own : ∀ e ∈ m.entries, e = (e.1, (m.get? e.1).getD 0) := by
    intro e mem
    rw [get?, (Assoc.get?_eq_some_iff m.nodup).2 mem, Option.getD_some]
  rw [Assoc.names, List.map_map]
  exact (List.map_id' m.entries).symm.trans (List.map_congr_left own)

theorem total_perm {entries others : List (String × Nat)} (perm : entries.Perm others) :
    Assoc.total entries = Assoc.total others := by
  induction perm with
  | nil => rfl
  | cons e _ ih => rw [Assoc.total, Assoc.total, ih]
  | swap e f _ =>
    simp only [Assoc.total]
    omega
  | trans _ _ ih ih' => exact ih.trans ih'

/-- Maps that agree about all names but one have sums that differ by what they say about this
one. -/
theorem total_of_forall_ne {m n : OrderedMap Nat} {name : String}
    (same : ∀ other, other ≠ name → m.get? other = n.get? other) :
    Assoc.total m.entries + (n.get? name).getD 0 =
      Assoc.total n.entries + (m.get? name).getD 0 := by
  have levelled : ∀ other, (m.insert name 0).get? other = (n.insert name 0).get? other := by
    intro other
    by_cases own : other = name
    · rw [own, get?_insert_self, get?_insert_self]
    · rw [get?_insert_of_ne _ own, get?_insert_of_ne _ own, same other own]
  have total_eq := total_perm (entries_perm levelled)
  have first := Assoc.total_set name 0 m.entries
  have second := Assoc.total_set name 0 n.entries
  simp only [get?, insert] at total_eq first second ⊢
  omega

end OrderedMap

end SelectorCatalog
