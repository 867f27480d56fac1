import SelectorCatalog.Proofs.Json.Inherited

/-!
# No name occurs twice in a document that is read

Of two members of one name the last value counts, so the objects of a document that was read have no
two members of one name, at any depth (`Json.parse_hasDistinctNames`).
-/

set_option autoImplicit false

namespace SelectorCatalog

/-- No object of the document has two members of one name. -/
inductive Value.HasDistinctNames : Value → Prop
  | null : HasDistinctNames .null
  | bool (b : Bool) : HasDistinctNames (.bool b)
  | int (n : Int) : HasDistinctNames (.int n)
  | double (d : Double) : HasDistinctNames (.double d)
  | text (s : String) : HasDistinctNames (.text s)
  | list {items : List Value} (each : ∀ v ∈ items, HasDistinctNames v) :
    HasDistinctNames (.list items)
  | object {members : List (String × Value)} (distinct : (Assoc.names members).Nodup)
      (each : ∀ m ∈ members, HasDistinctNames m.2) : HasDistinctNames (.object members)

namespace Assoc

variable {α : Type}

theorem mem_of_get? {name : String} {v : α} {entries : List (String × α)}
    (h : get? name entries = some v) :
    (name, v) ∈ entries := by
  induction entries with
  | nil => cases h
  | cons e rest ih =>
    obtain ⟨k, w⟩ := e
    rw [get?] at h
    split at h
    · rename_i same
      cases h
      exact same ▸ List.mem_cons_self
    · exact List.mem_cons_of_mem _ (ih h)

theorem mem_set {name : String} {v : α} {entries : List (String × α)} {e : String × α}
    (h : e ∈ set name v entries) : e = (name, v) ∨ e ∈ entries := by
  induction entries with
  | nil => exact .inl (List.mem_singleton.1 h)
  | cons f rest ih =>
    obtain ⟨k, w⟩ := f
    rw [set] at h
    split at h
    · rename_i same
      rcases List.mem_cons.1 h with rfl | later
      · exact .inl (same ▸ rfl)
      · exact .inr (List.mem_cons_of_mem _ later)
    · rcases List.mem_cons.1 h with rfl | later
      · exact .inr List.mem_cons_self
      · exact (ih later).imp_right (List.mem_cons_of_mem _)

theorem get?_eq_some_iff {entries : List (String × α)} (distinct : (names entries).Nodup)
    {name : String} {v : α} : get? name entries = some v ↔ (name, v) ∈ entries := by
  refine ⟨mem_of_get?, fun mem => ?_⟩
  induction entries with
  | nil => cases mem
  | cons e rest ih =>
    obtain ⟨k, w⟩ := e
    rw [names, List.map_cons, List.nodup_cons] at distinct
    rcases List.mem_cons.1 mem with same | later
    · cases same
      exact if_pos rfl
    · have other : k ≠ name := by
        rintro rfl
        exact distinct.1 (List.mem_map.2 ⟨_, later, rfl⟩)
      rw [get?, if_neg other]
      exact ih distinct.2 later

theorem nodup_filterMap {β : Type} {pick : String × α → Option (String × β)}
    (keeps : ∀ e f, pick e = some f → f.1 = e.1) {entries : List (String × α)}
    (distinct : (names entries).Nodup) : (names (entries.filterMap pick)).Nodup := by
  refine List.pairwise_map.2 ((List.pairwise_map.1 distinct).filterMap pick ?_)
  intro a b other x hx y hy
  rwa [keeps a x hx, keeps b y hy]

/-- The order of the entries does not matter to what is found. -/
theorem get?_of_perm {entries others : List (String × α)} (perm : entries.Perm others)
    (distinct : (names entries).Nodup) (name : String) : get? name entries = get? name others := by
  have distinct' : (names others).Nodup := (perm.map Prod.fst).nodup_iff.1 distinct
  ext v
  rw [get?_eq_some_iff distinct, get?_eq_some_iff distinct', perm.mem_iff]

theorem get?_map {β : Type} (f : α → β) (name : String) (entries : List (String × α)) :
    get? name (entries.map fun e => (e.1, f e.2)) = (get? name entries).map f := by
  induction entries with
  | nil => rfl
  | cons e rest ih =>
    rw [List.map_cons, get?, get?]
    split
    · rfl
    · exact ih

end Assoc

/-- Maps with the same values have the same entries, in some order. -/
theorem OrderedMap.entries_perm {α : Type} {m n : OrderedMap α}
    (same : ∀ name, m.get? name = n.get? name) :
    m.entries.Perm n.entries := by
  have distinct (m : OrderedMap α) : m.entries.Nodup :=
    List.Pairwise.of_map Prod.fst (fun _ _ other same => other (congrArg Prod.fst same)) m.nodup
  rw [List.perm_ext_iff_of_nodup (distinct m) (distinct n)]
  rintro ⟨name, v⟩
  rw [← Assoc.get?_eq_some_iff m.nodup, ← Assoc.get?_eq_some_iff n.nodup]
  exact iff_of_eq (congrArg (· = some v) (same name))

namespace Value.HasDistinctNames

theorem names {members : List (String × Value)} (h : HasDistinctNames (.object members)) :
    (Assoc.names members).Nodup := by
  cases h
  assumption

theorem object_nil : HasDistinctNames (.object []) := .object List.nodup_nil (by simp)

/-- Setting a member of an object keeps its names apart. -/
theorem set {members : List (String × Value)} (h : HasDistinctNames (.object members))
    (name : String) {v : Value} (value : v.HasDistinctNames) :
    HasDistinctNames (.object (Assoc.set name v members)) := by
  cases h with
  | object distinct each =>
    refine .object (Assoc.nodup_set distinct name v) fun m mem => ?_
    rcases Assoc.mem_set mem with rfl | old
    · exact value
    · exact each m old

theorem field {v : Value} (h : v.HasDistinctNames) (name : String) :
    Yields (v.field name) HasDistinctNames := by
  cases h with
  | @object members distinct each =>
    refine .ok ?_
    cases found : Assoc.get? name members with
    | none => exact .null
    | some w => exact each _ (Assoc.mem_of_get? found)
  | _ => exact .error _ _

theorem orElse {v other : Value} (h : v.HasDistinctNames) (instead : other.HasDistinctNames) :
    (v.orElse other).HasDistinctNames := by
  unfold Value.orElse
  split
  · exact h
  · exact instead

end Value.HasDistinctNames

namespace Json

theorem wordValues_hasDistinctNames : ∀ e ∈ wordValues, e.2.HasDistinctNames := by
  simp only [wordValues, List.forall_mem_cons, List.not_mem_nil, false_implies, implies_true,
    and_true]
  exact ⟨.null, .bool _, .bool _, .double _, .double _, .double _⟩

theorem readNumber_hasDistinctNames (s : List Char) :
    Yields (readNumber s) fun found => found.1.HasDistinctNames := by
  rw [readNumber.eq_def]
  split
  split
  split
  · exact .error _ _
  split
  split
  split
  · split
    · exact .error _ _
    · exact .ok (.int _)
  · exact .ok (.double _)

theorem inherits_hasDistinctNames : Inherits Value.HasDistinctNames where
  word := wordValues_hasDistinctNames
  number := readNumber_hasDistinctNames
  text := .text
  list := .list
  empty := .object_nil
  set := fun name _ members value => members.set name value

/-- **No name occurs twice in a document that is read.** -/
theorem parse_hasDistinctNames (s : String) : Yields (parse s) Value.HasDistinctNames :=
  inherits_hasDistinctNames.parse s

end Json

end SelectorCatalog
