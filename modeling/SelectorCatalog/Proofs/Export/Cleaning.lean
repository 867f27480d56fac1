import SelectorCatalog.Proofs.Export.Targets

/-!
# Cleaning names

Cleaning takes letters away and adds none (`joined_keptNames_sublist`). What it leaves alone are
inner paths without backslash and drive letter, and the doubled root (`sanitize_eq_self_iff`). So a
second pass changes nothing exactly if no drive letter has come to the front and no doubled root
stands before a name (`sanitize_sanitize_iff`). Whatever is put after a cleaned name is put after
its last component, the doubled root aside (`endsIn_sanitize`).
-/

set_option autoImplicit false

namespace SelectorCatalog.Export

open SelectorCatalog.Path (IsName IsInner)

variable {name : String}

/-! ## Letters of a cleaned name -/

theorem joined_sublist {some_parts parts : List (List Char)} (h : some_parts.Sublist parts) :
    (['/'].intercalate some_parts).Sublist (['/'].intercalate parts) := by
  induction h with
  | slnil => exact List.Sublist.refl _
  | @cons kept all part fewer ih =>
    cases all with
    | nil => simp [List.sublist_nil.1 fewer]
    | cons next rest =>
      rw [List.intercalate_cons_cons]
      exact ih.trans (List.sublist_append_right _ _)
  | @cons_cons kept all part fewer ih =>
    cases kept with
    | nil =>
      cases all with
      | nil => exact List.Sublist.refl _
      | cons next rest =>
        rw [List.intercalate_cons_cons, List.intercalate_singleton, List.append_assoc]
        exact List.sublist_append_left _ _
    | cons first others =>
      obtain ⟨next, rest, rfl⟩ :=
        List.exists_cons_of_ne_nil (List.ne_nil_of_mem (fewer.subset List.mem_cons_self))
      rw [List.intercalate_cons_cons, List.intercalate_cons_cons]
      exact (List.Sublist.refl _).append ih

/-- Cleaning takes letters away and adds none. -/
theorem joined_keptNames_sublist (name : String) :
    ("/".intercalate (keptNames name)).toList.Sublist (withoutDrive name) := by
  have parts : ((keptNames name).map String.toList).Sublist ((withoutDrive name).splitOn '/') := by
    have kept : (keptNames name).Sublist (Path.partsOf (withoutDrive name)) := List.filter_sublist
    have letters := kept.map String.toList
    rw [Path.partsOf, List.map_map] at letters
    exact letters.trans (by simp [Function.comp_def])
  have whole := joined_sublist parts
  rwa [List.intercalate_splitOn, ← Path.toList_joined] at whole

theorem backslash_not_mem_withoutDrive (name : String) : '\\' ∉ withoutDrive name := by
  have turned : '\\' ∉ name.toList.map fun c => if c == '\\' then '/' else c := by
    rw [List.mem_map]
    rintro ⟨c, -, same⟩
    split at same
    · exact absurd same (by decide)
    · rename_i other
      exact other (by simpa using same)
  unfold withoutDrive dropDrive
  split
  · rename_i letter rest split
    split
    · rw [split] at turned
      exact fun mem => turned (List.mem_cons_of_mem _ (List.mem_cons_of_mem _ mem))
    · rwa [split] at turned
  · exact turned

/-! ## The two forms of a cleaned name -/

theorem sanitize_of_not_doubled (h : ¬HasDoubledRoot name) :
    sanitize name =
      if "/".intercalate (keptNames name) = "" then namelessSource
        else "/".intercalate (keptNames name) := by
  rw [sanitize_eq, keptComponents_of_not h]
  simp only [String.isEmpty_iff]

theorem sanitize_of_doubled (h : HasDoubledRoot name) :
    sanitize name = if keptNames name = [] then "//"
      else "///" ++ "/".intercalate (keptNames name) := by
  rw [sanitize_eq, keptComponents_of_doubled h]
  cases keptNames name with
  | nil => decide
  | cons first rest =>
    have joined : "/".intercalate ("//" :: first :: rest) =
        "///" ++ "/".intercalate (first :: rest) := by
      apply String.toList_inj.1
      simp
    rw [joined, if_neg (List.cons_ne_nil _ _), if_neg (by simp)]

theorem backslash_not_mem_sanitize (name : String) : '\\' ∉ (sanitize name).toList := by
  have kept : '\\' ∉ ("/".intercalate (keptNames name)).toList := fun mem =>
    backslash_not_mem_withoutDrive name ((joined_keptNames_sublist name).subset mem)
  by_cases doubled : HasDoubledRoot name
  · rw [sanitize_of_doubled doubled]
    split
    · decide
    · rw [String.toList_append, List.mem_append, not_or]
      exact ⟨by decide, kept⟩
  · rw [sanitize_of_not_doubled doubled]
    split
    · decide
    · exact kept

/-! ## Drive letters -/

/-- A letter and a colon stand in front of a text. -/
def StartsWithDrive (s : String) : Prop :=
  ∃ letter rest, s.toList = letter :: ':' :: rest ∧ letter.isAlpha = true

theorem dropDrive_eq_self {s : String} (h : ¬StartsWithDrive s) :
    dropDrive s.toList = s.toList := by
  unfold dropDrive
  split
  · rename_i letter rest split
    rw [if_neg fun alpha => h ⟨letter, rest, split, alpha⟩, split]
  · rfl

/-- A name without backslash and drive letter is read as it is. -/
theorem withoutDrive_eq_self {s : String} (plain : '\\' ∉ s.toList) (h : ¬StartsWithDrive s) :
    withoutDrive s = s.toList := by
  have turned : s.toList.map (fun c => if c == '\\' then '/' else c) = s.toList := by
    refine (List.map_congr_left fun c mem => ?_).trans (List.map_id _)
    have other : c ≠ '\\' := by
      rintro rfl
      exact plain mem
    exact if_neg (by simpa using other)
  rw [withoutDrive, turned, dropDrive_eq_self h]

theorem withoutDrive_shorter {s : String} (h : StartsWithDrive s) :
    (withoutDrive s).length < s.toList.length := by
  obtain ⟨letter, rest, split, alpha⟩ := h
  have other : letter ≠ '\\' := by
    rintro rfl
    exact absurd alpha (by decide)
  have dropped : withoutDrive s = rest.map fun c => if c == '\\' then '/' else c := by
    rw [withoutDrive, split, List.map_cons, if_neg (by simpa using other)]
    exact if_pos alpha
  rw [dropped, split, List.length_map, List.length_cons, List.length_cons]
  omega

/-! ## Cleaning again -/

theorem isKept_of_isName {part : String} (h : IsName part) : isKept part = true := by
  have root : part ≠ "/" := by
    rintro rfl
    exact h.whole (by decide)
  simp [isKept, root, h.ne_upwards, h.ne_point]

theorem sanitize_joined {names : List String} (some_left : names ≠ [])
    (named : ∀ n ∈ names, IsName n) (plain : '\\' ∉ ("/".intercalate names).toList)
    (free : ¬StartsWithDrive ("/".intercalate names)) :
    sanitize ("/".intercalate names) = "/".intercalate names := by
  have letters := withoutDrive_eq_self plain free
  have single : ¬HasDoubledRoot ("/".intercalate names) := by
    rintro ⟨rest, split, -⟩
    exact Path.head?_joined named (by rw [← letters, split]; rfl)
  have kept : keptNames ("/".intercalate names) = names := by
    rw [keptNames, letters, Path.partsOf_joined named]
    exact List.filter_eq_self.2 fun n hn => isKept_of_isName (named n hn)
  have nonempty := Path.joined_ne_empty some_left fun n hn => (named n hn).nonempty
  rw [sanitize_of_not_doubled single, kept, if_neg nonempty]

/-- A second pass takes a drive letter away. -/
theorem sanitize_ne_of_drive {s : String} (h : StartsWithDrive s) : sanitize s ≠ s := by
  intro same
  by_cases doubled : HasDoubledRoot s
  · have slash := head?_sanitize doubled
    obtain ⟨letter, rest, split, alpha⟩ := h
    rw [same, split, List.head?_cons, Option.some.injEq] at slash
    exact absurd alpha (slash ▸ by decide)
  · have shorter := withoutDrive_shorter h
    have letters := (joined_keptNames_sublist s).length_le
    rw [sanitize_of_not_doubled doubled] at same
    split at same
    · obtain ⟨letter, rest, split, -⟩ := h
      rw [← same] at split
      cases split
    · rw [same] at letters
      omega

/-- **What cleaning leaves alone**: inner paths without backslash and drive letter, and the doubled
root. -/
theorem sanitize_eq_self_iff (s : String) :
    sanitize s = s ↔ s = "//" ∨ IsInner s ∧ '\\' ∉ s.toList ∧ ¬StartsWithDrive s := by
  constructor
  · intro same
    have free : ¬StartsWithDrive s := fun drive => sanitize_ne_of_drive drive same
    have plain := backslash_not_mem_sanitize s
    rw [same] at plain
    by_cases doubled : HasDoubledRoot s
    · refine .inl ?_
      have form := sanitize_of_doubled doubled
      rw [same] at form
      split at form
      · exact form
      · obtain ⟨rest, split, other⟩ := doubled
        rw [withoutDrive_eq_self plain free, form, String.toList_append] at split
        cases split
        exact absurd rfl other
    · exact .inr ⟨same ▸ isInner_sanitize doubled, plain, free⟩
  · rintro (rfl | ⟨inner, plain, free⟩)
    · decide
    · obtain ⟨names, some_left, named, rfl⟩ := Path.isInner_iff.1 inner
      exact sanitize_joined some_left named plain free

theorem sanitize_eq_doubledRoot_iff (name : String) :
    sanitize name = "//" ↔ HasDoubledRoot name ∧ keptNames name = [] := by
  constructor
  · intro same
    have doubled : HasDoubledRoot name := by
      by_contra single
      exact (isInner_sanitize single).relative (by rw [same]; decide)
    refine ⟨doubled, ?_⟩
    rw [sanitize_of_doubled doubled] at same
    split at same
    · assumption
    · have letters := congrArg (·.toList.length) same
      simp at letters
  · rintro ⟨doubled, none_left⟩
    rw [sanitize_of_doubled doubled, if_pos none_left]

theorem startsWithDrive_joined {first : String} {rest : List String}
    (named : ∀ n ∈ first :: rest, IsName n) :
    StartsWithDrive ("/".intercalate (first :: rest)) ↔ StartsWithDrive first := by
  have nonempty := (Path.isName_iff.1 (named first List.mem_cons_self)).1
  have head : ∃ more, more.head? ≠ some ':' ∧ ("/".intercalate (first :: rest)).toList =
      first.toList ++ more := by
    cases rest with
    | nil => exact ⟨[], by simp, by simp⟩
    | cons next others =>
      refine ⟨'/' :: ("/".intercalate (next :: others)).toList, by simp, ?_⟩
      simp
  obtain ⟨more, slash, split⟩ := head
  rw [StartsWithDrive, StartsWithDrive, split]
  cases e : first.toList with
  | nil => exact absurd e nonempty
  | cons c others =>
    cases others with
    | nil =>
      refine iff_of_false ?_ (by simp)
      rintro ⟨letter, after, same, -⟩
      have next : more = ':' :: after := (List.cons.inj same).2
      exact slash (by rw [next, List.head?_cons])
    | cons d others => simp

/-- A drive letter stands in front of a cleaned name exactly if it stands in front of the first
component that is kept. -/
theorem startsWithDrive_sanitize_iff (name : String) :
    StartsWithDrive (sanitize name) ↔
      ¬HasDoubledRoot name ∧ ∃ first ∈ (keptNames name).head?, StartsWithDrive first := by
  by_cases doubled : HasDoubledRoot name
  · refine iff_of_false ?_ fun h => h.1 doubled
    rintro ⟨letter, rest, split, alpha⟩
    have slash := head?_sanitize doubled
    rw [split, List.head?_cons, Option.some.injEq] at slash
    exact absurd alpha (slash ▸ by decide)
  · rw [sanitize_of_not_doubled doubled]
    cases split : keptNames name with
    | nil =>
      refine iff_of_false ?_ (by simp)
      rintro ⟨letter, rest, split, -⟩
      cases split
    | cons first rest =>
      have named : ∀ n ∈ first :: rest, IsName n := fun n hn => isName_of_mem_keptNames (split ▸ hn)
      have nonempty := Path.joined_ne_empty (List.cons_ne_nil _ _) fun n hn => (named n hn).nonempty
      rw [if_neg nonempty, startsWithDrive_joined named]
      simp [doubled]

/-- **Cleaning twice is cleaning once exactly if no drive letter comes to the front and no doubled
root stays before a name.** A cleaned name has no backslash in any case. -/
theorem sanitize_sanitize_iff (name : String) :
    '\\' ∉ (sanitize name).toList ∧
    (StartsWithDrive (sanitize name) ↔
      ¬HasDoubledRoot name ∧ ∃ first ∈ (keptNames name).head?, StartsWithDrive first) ∧
    (sanitize (sanitize name) = sanitize name ↔
      ¬StartsWithDrive (sanitize name) ∧ (HasDoubledRoot name → keptNames name = [])) := by
  have plain := backslash_not_mem_sanitize name
  refine ⟨plain, startsWithDrive_sanitize_iff name, ?_⟩
  rw [sanitize_eq_self_iff, isInner_sanitize_iff, sanitize_eq_doubledRoot_iff,
    startsWithDrive_sanitize_iff]
  by_cases doubled : HasDoubledRoot name <;> simp [doubled, plain]

/-- A drive letter behind a slash comes to the front when the slash goes, and a second pass takes it
away. -/
theorem sanitize_keeps_drive :
    sanitize "/C:/x.sol" = "C:/x.sol" ∧ StartsWithDrive (sanitize "/C:/x.sol") ∧
    sanitize (sanitize "/C:/x.sol") = "x.sol" := by
  have cleaned : sanitize "/C:/x.sol" = "C:/x.sol" := by decide
  refine ⟨cleaned, ⟨'C', "/x.sol".toList, ?_, by decide⟩, ?_⟩
  · rw [cleaned]
    decide
  · rw [cleaned]
    decide

/-! ## Cleaned names as paths -/

theorem endsIn_sanitize (name : String) :
    sanitize name = "//" ∨ ∃ directory last, Path.EndsIn (sanitize name) directory last := by
  by_cases doubled : HasDoubledRoot name
  · by_cases none_left : keptNames name = []
    · exact .inl ((sanitize_eq_doubledRoot_iff name).2 ⟨doubled, none_left⟩)
    · refine .inr ?_
      have named : ∀ n ∈ keptNames name, IsName n := fun n hn => isName_of_mem_keptNames hn
      rw [sanitize_of_doubled doubled, if_neg none_left]
      rw [← List.dropLast_concat_getLast none_left] at named ⊢
      have ⟨parts, last⟩ := List.forall_mem_append.1 named
      exact ⟨_, _, Path.endsIn_rooted parts (last _ (List.mem_singleton_self _))⟩
  · obtain ⟨parts, last, inner, named, form⟩ := Path.isInner_iff_concat.1 (isInner_sanitize doubled)
    exact .inr ⟨_, _, form ▸ Path.endsIn_joined inner named⟩

theorem endsIn_numbered {s last : String} {directory : Path}
    (h : Path.EndsIn s directory last) (n : Nat) :
    Path.EndsIn (numbered s n) directory (numberedName last n) := by
  rw [numbered_eq_render h]
  exact Path.endsIn_render directory.root h.inner (isName_numberedName h.named.whole n)

end SelectorCatalog.Export
