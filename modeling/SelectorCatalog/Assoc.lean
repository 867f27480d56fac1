/-!
# Ordered maps

Members of a document, sources by path and library addresses by name are maps whose order can be
seen: setting a name that is present keeps its place, and a new name goes to the end. `Assoc` has
the operations on plain lists of pairs, `OrderedMap` carries the proof that no name occurs twice.

Main statements: what is set is found (`get?_set_self`), other names keep their values
(`get?_set_of_ne`), and no name is doubled (`nodup_set`).
-/

set_option autoImplicit false

namespace SelectorCatalog

namespace Assoc

variable {α : Type}

/-- Sets the value of a name. -/
def set (name : String) (v : α) : List (String × α) → List (String × α)
  | [] => [(name, v)]
  | (k, w) :: rest => if k = name then (k, v) :: rest else (k, w) :: set name v rest

/-- The value of a name. -/
def get? (name : String) : List (String × α) → Option α
  | [] => none
  | (k, w) :: rest => if k = name then some w else get? name rest

/-- The names in order. -/
def names (entries : List (String × α)) : List String := entries.map Prod.fst

/-- The sum of numbers by name. -/
def total : List (String × Nat) → Nat
  | [] => 0
  | (_, n) :: rest => n + total rest

theorem get?_set_self (name : String) (v : α) (entries : List (String × α)) :
    get? name (set name v entries) = some v := by
  induction entries with
  | nil => simp [set, get?]
  | cons e rest ih =>
    obtain ⟨k, w⟩ := e
    by_cases h : k = name <;> simp [set, get?, h, ih]

theorem get?_set_of_ne {name other : String} (h : other ≠ name) (v : α)
    (entries : List (String × α)) : get? other (set name v entries) = get? other entries := by
  induction entries with
  | nil => simp [set, get?, h.symm]
  | cons e rest ih =>
    obtain ⟨k, w⟩ := e
    by_cases hk : k = name
    · subst hk
      simp [set, get?, h.symm]
    · simp only [set, hk, if_false, get?, ih]

theorem names_set (name : String) (v : α) (entries : List (String × α)) :
    names (set name v entries) =
      if name ∈ names entries then names entries else names entries ++ [name] := by
  induction entries with
  | nil => simp [set, names]
  | cons e rest ih =>
    obtain ⟨k, w⟩ := e
    by_cases hk : k = name
    · simp [set, names, hk]
    · have hne : name ≠ k := fun h => hk h.symm
      simp only [names] at ih
      simp only [set, hk, if_false, names, List.map_cons, ih, List.mem_cons, hne, false_or]
      split <;> simp_all

theorem set_of_not_mem {name : String} {entries : List (String × α)} (h : name ∉ names entries)
    (v : α) : set name v entries = entries ++ [(name, v)] := by
  induction entries with
  | nil => rfl
  | cons e rest ih =>
    obtain ⟨k, w⟩ := e
    simp only [names, List.map_cons, List.mem_cons, not_or] at h
    rw [set, if_neg (Ne.symm h.1), ih h.2]
    rfl

/-- Setting a number changes the sum by what it differs from the number that was there. -/
theorem total_set (name : String) (n : Nat) (entries : List (String × Nat)) :
    total (set name n entries) + (get? name entries).getD 0 = total entries + n := by
  induction entries with
  | nil => simp [set, get?, total]
  | cons e rest ih =>
    obtain ⟨k, m⟩ := e
    by_cases h : k = name
    · simp only [set, get?, total, if_pos h, Option.getD_some]
      omega
    · simp only [set, get?, total, if_neg h]
      omega

theorem nodup_set {entries : List (String × α)} (h : (names entries).Nodup) (name : String)
    (v : α) : (names (set name v entries)).Nodup := by
  rw [names_set]
  split
  · exact h
  · next hn =>
    rw [List.nodup_append]
    refine ⟨h, by simp, ?_⟩
    intro a ha b hb
    simp only [List.mem_singleton] at hb
    rintro rfl
    exact hn (hb ▸ ha)

end Assoc

/-- A map from names in which the order of the entries counts. -/
structure OrderedMap (α : Type) where
  entries : List (String × α)
  nodup : (Assoc.names entries).Nodup

namespace OrderedMap

variable {α : Type}

/-- The map without entries. -/
def empty : OrderedMap α := ⟨[], List.nodup_nil⟩

instance : Inhabited (OrderedMap α) := ⟨empty⟩

theorem ext' {a b : OrderedMap α} (h : a.entries = b.entries) : a = b := by
  cases a; cases b; cases h; rfl

instance [DecidableEq α] : DecidableEq (OrderedMap α) := fun a b =>
  if h : a.entries = b.entries then .isTrue (ext' h)
  else .isFalse fun e => h (congrArg OrderedMap.entries e)

/-- Sets the value of a name. -/
def insert (m : OrderedMap α) (name : String) (v : α) : OrderedMap α :=
  ⟨Assoc.set name v m.entries, Assoc.nodup_set m.nodup name v⟩

/-- The value of a name. -/
def get? (m : OrderedMap α) (name : String) : Option α := Assoc.get? name m.entries

/-- Whether there is no entry. -/
def isEmpty (m : OrderedMap α) : Bool := m.entries.isEmpty

/-- The map of a list of pairs; of two pairs of one name the last counts, at the place of the
first. -/
def ofList (pairs : List (String × α)) : OrderedMap α :=
  pairs.foldl (fun m p => m.insert p.1 p.2) empty

/-- The entries in ascending order of names. -/
def sorted (m : OrderedMap α) : List (String × α) :=
  m.entries.mergeSort fun a b => decide (a.1 ≤ b.1)

@[simp] theorem get?_insert_self (m : OrderedMap α) (name : String) (v : α) :
    (m.insert name v).get? name = some v :=
  Assoc.get?_set_self name v m.entries

/-- Setting new names one after the other appends their pairs. -/
theorem entries_foldl_insert (pairs : List (String × α)) (m : OrderedMap α)
    (distinct : (Assoc.names m.entries ++ Assoc.names pairs).Nodup) :
    (pairs.foldl (fun m p => m.insert p.1 p.2) m).entries = m.entries ++ pairs := by
  induction pairs generalizing m with
  | nil => simp
  | cons p rest ih =>
    have fresh : p.1 ∉ Assoc.names m.entries := fun h =>
      (List.nodup_append.1 distinct).2.2 p.1 h p.1 (by simp [Assoc.names]) rfl
    have step : (m.insert p.1 p.2).entries = m.entries ++ [p] := Assoc.set_of_not_mem fresh p.2
    rw [List.foldl_cons, ih, step, List.append_assoc, List.singleton_append]
    simpa [step, Assoc.names] using distinct

theorem ofList_entries (m : OrderedMap α) : ofList m.entries = m := by
  apply ext'
  rw [ofList, entries_foldl_insert m.entries empty m.nodup]
  rfl

theorem get?_insert_of_ne (m : OrderedMap α) {name other : String} (h : other ≠ name) (v : α) :
    (m.insert name v).get? other = m.get? other :=
  Assoc.get?_set_of_ne h v m.entries

end OrderedMap

end SelectorCatalog
