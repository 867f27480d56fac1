import SelectorCatalog.Files.Path
import SelectorCatalog.Proofs.Text.Parts

/-!
# Paths that stay below where they start

`Path.IsInner` is said of the text of a path: between its slashes stand names, and nothing that
leads elsewhere. Such a text is made of names with slashes between them (`Path.isInner_iff`), and it
is read as these names (`Path.ofText_joined`).
-/

set_option autoImplicit false

namespace SelectorCatalog.Path

/-- A component that leads downwards. -/
structure IsName (part : String) : Prop where
  nonempty : part ≠ ""
  ne_point : part ≠ "."
  ne_upwards : part ≠ ".."
  whole : '/' ∉ part.toList

/-- The text of a path that starts at no root and only leads downwards. -/
structure IsInner (s : String) : Prop where
  nonempty : s ≠ ""
  relative : s.toList.head? ≠ some '/'
  downwards : ∀ part ∈ s.toList.splitOn '/', part ≠ [] ∧ part ≠ ['.'] ∧ part ≠ ['.', '.']

theorem isName_iff {s : String} :
    IsName s ↔ s.toList ≠ [] ∧ s.toList ≠ ['.'] ∧ s.toList ≠ ['.', '.'] ∧ '/' ∉ s.toList := by
  have spelled (t : String) : s.toList ≠ t.toList ↔ s ≠ t := not_congr String.toList_inj
  constructor
  · intro ⟨nonempty, point, upwards, whole⟩
    exact ⟨(spelled "").2 nonempty, (spelled ".").2 point, (spelled "..").2 upwards, whole⟩
  · intro ⟨nonempty, point, upwards, whole⟩
    exact ⟨(spelled "").1 nonempty, (spelled ".").1 point, (spelled "..").1 upwards, whole⟩

/-- A component with a character besides points leads downwards. -/
theorem isName_of_mem {s : String} {c : Char} (mem : c ∈ s.toList) (other : c ≠ '.')
    (whole : '/' ∉ s.toList) : IsName s := by
  refine isName_iff.2 ⟨?_, ?_, ?_, whole⟩
  all_goals
    intro e
    rw [e] at mem
    simp [other] at mem

/-! ## Splitting and joining -/

/-- A character that is no part of the writing of paths stands in a component. -/
theorem exists_mem_parts {s : String} {c : Char} (mem : c ∈ s.toList)
    (slash : c ≠ '/') (point : c ≠ '.') :
    ∃ part ∈ (ofText s).parts, c ∈ part.toList := by
  obtain ⟨part, here, inside⟩ := Text.exists_mem_splitOn mem slash
  refine ⟨String.ofList part, List.mem_map_of_mem (List.mem_filter.2 ⟨here, ?_⟩),
    by simpa using inside⟩
  rw [isComponent, Bool.and_eq_true, Bool.not_eq_true', List.isEmpty_eq_false_iff, bne_iff_ne]
  refine ⟨List.ne_nil_of_mem inside, ?_⟩
  rintro rfl
  exact point (List.mem_singleton.1 inside)

theorem toList_joined (names : List String) :
    ("/".intercalate names).toList = ['/'].intercalate (names.map String.toList) :=
  String.toList_intercalate

/-- **Joined parts are split again.** -/
theorem splitOn_joined {parts : List String} (some_left : parts ≠ [])
    (whole : ∀ p ∈ parts, '/' ∉ p.toList) :
    ("/".intercalate parts).toList.splitOn '/' = parts.map String.toList := by
  rw [toList_joined, List.splitOn_intercalate]
  · intro l hl
    obtain ⟨p, hp, rfl⟩ := List.mem_map.1 hl
    exact whole p hp
  · simpa using some_left

theorem joined_splitOn (s : String) :
    "/".intercalate ((s.toList.splitOn '/').map String.ofList) = s := by
  apply String.toList_inj.1
  rw [toList_joined, List.map_map]
  simp [Function.comp_def, List.intercalate_splitOn]

theorem joined_ne_empty {names : List String} (some_left : names ≠ [])
    (named : ∀ n ∈ names, n ≠ "") :
    "/".intercalate names ≠ "" := by
  obtain ⟨first, rest, rfl⟩ := List.exists_cons_of_ne_nil some_left
  intro e
  have letters := congrArg String.toList e
  have first_letters : first.toList ≠ [] := by simpa using named first List.mem_cons_self
  rw [toList_joined] at letters
  cases rest with
  | nil => exact first_letters (by simpa using letters)
  | cons second more =>
    rw [List.map_cons, List.map_cons, List.intercalate_cons_cons] at letters
    simp at letters

/-- What stands after joined parts stands after the last one. -/
theorem joined_concat_append (parts : List String) (last s : String) :
    "/".intercalate (parts ++ [last]) ++ s = "/".intercalate (parts ++ [last ++ s]) := by
  cases parts with
  | nil => simp
  | cons first rest =>
    rw [String.intercalate_append_of_ne_nil (List.cons_ne_nil _ _) (List.cons_ne_nil _ _),
      String.intercalate_append_of_ne_nil (List.cons_ne_nil _ _) (List.cons_ne_nil _ _)]
    simp [String.append_assoc]

/-! ## Names -/

theorem head?_joined {names : List String} (h : ∀ n ∈ names, IsName n) :
    ("/".intercalate names).toList.head? ≠ some '/' := by
  cases names with
  | nil => simp
  | cons first rest =>
    have ⟨nonempty, _, _, whole⟩ := h first List.mem_cons_self
    obtain ⟨c, more, e⟩ := List.exists_cons_of_ne_nil (by simpa using nonempty : first.toList ≠ [])
    have head : ("/".intercalate (first :: rest)).toList.head? = some c := by
      rw [toList_joined, List.map_cons, e]
      cases rest <;> simp [List.intercalate_cons_cons]
    rw [head]
    rintro same
    cases same
    exact whole (e ▸ List.mem_cons_self)

/-- **A text stays below exactly if it is made of names.** -/
theorem isInner_iff {s : String} :
    IsInner s ↔ ∃ names, names ≠ [] ∧ (∀ n ∈ names, IsName n) ∧ s = "/".intercalate names := by
  constructor
  · intro h
    refine ⟨(s.toList.splitOn '/').map String.ofList, ?_, ?_, (joined_splitOn s).symm⟩
    · simp [List.splitOn_ne_nil]
    · intro n hn
      obtain ⟨part, hp, rfl⟩ := List.mem_map.1 hn
      have ⟨nonempty, point, upwards⟩ := h.downwards part hp
      rw [isName_iff, String.toList_ofList]
      exact ⟨nonempty, point, upwards, Text.not_mem_of_mem_splitOn hp⟩
  · rintro ⟨names, some_left, named, rfl⟩
    refine ⟨joined_ne_empty some_left fun n hn => (named n hn).nonempty, head?_joined named, ?_⟩
    rw [splitOn_joined some_left fun n hn => (named n hn).whole]
    intro part hp
    obtain ⟨n, hn, rfl⟩ := List.mem_map.1 hp
    have ⟨nonempty, point, upwards, _⟩ := isName_iff.1 (named n hn)
    exact ⟨nonempty, point, upwards⟩

theorem isName_of_mem_concat {parts : List String} {last : String} (named : ∀ p ∈ parts, IsName p)
    (name : IsName last) : ∀ p ∈ parts ++ [last], IsName p :=
  List.forall_mem_append.2 ⟨named, by simpa using name⟩

theorem isInner_iff_concat {s : String} :
    IsInner s ↔ ∃ parts last, (∀ p ∈ parts, IsName p) ∧ IsName last ∧
      s = "/".intercalate (parts ++ [last]) := by
  rw [isInner_iff]
  constructor
  · rintro ⟨names, some_left, named, rfl⟩
    rw [← List.dropLast_concat_getLast some_left] at named ⊢
    have ⟨parts, last⟩ := List.forall_mem_append.1 named
    exact ⟨_, _, parts, last _ (List.mem_singleton_self _), rfl⟩
  · rintro ⟨parts, last, named, name, rfl⟩
    exact ⟨_, List.append_ne_nil_of_right_ne_nil _ (List.cons_ne_nil _ _),
      isName_of_mem_concat named name, rfl⟩

/-- **Joined names are read as a path of these names.** -/
theorem ofText_joined {names : List String} (h : ∀ n ∈ names, IsName n) :
    ofText ("/".intercalate names) = ⟨.relative, names⟩ := by
  have root : rootOf ("/".intercalate names).toList = .relative := by
    have head := head?_joined h
    unfold rootOf
    split <;> simp_all
  cases names with
  | nil => rfl
  | cons first rest =>
    have parts : partsOf ("/".intercalate (first :: rest)).toList = first :: rest := by
      rw [partsOf, splitOn_joined (List.cons_ne_nil _ _) fun n hn => (h n hn).whole,
        List.filter_eq_self.2]
      · rw [List.map_map]
        simp [Function.comp_def]
      · intro part hp
        obtain ⟨n, hn, rfl⟩ := List.mem_map.1 hp
        have ⟨nonempty, point, _⟩ := isName_iff.1 (h n hn)
        simp [isComponent, nonempty, point]
    rw [ofText, root, parts]

/-- A component that was read names something, unless it leads upwards. -/
theorem isName_of_mem_partsOf {s : List Char} {part : String} (h : part ∈ partsOf s)
    (ne_upwards : part ≠ "..") : IsName part := by
  obtain ⟨p, hp, rfl⟩ := List.mem_map.1 h
  obtain ⟨mem, counts⟩ := List.mem_filter.1 hp
  simp only [isComponent, Bool.and_eq_true, Bool.not_eq_true', List.isEmpty_eq_false_iff,
    bne_iff_ne, ne_eq] at counts
  refine ⟨by simpa using counts.1, ?_, ne_upwards, by simpa using Text.not_mem_of_mem_splitOn mem⟩
  exact fun e => counts.2 (by simpa using congrArg String.toList e)

/-! ## Texts that start with a slash -/

theorem rootOf_ne_relative {s : List Char} (h : s.head? = some '/') : rootOf s ≠ .relative := by
  cases s with
  | nil => cases h
  | cons c rest =>
    cases h
    unfold rootOf
    split <;> simp_all

/-- A path with a root stands alone wherever it is looked up. -/
theorem join_ofText_of_root {s : String} (h : s.toList.head? = some '/') (folder : Path) :
    folder.join (ofText s) = ofText s :=
  if_neg (rootOf_ne_relative h)

end SelectorCatalog.Path
