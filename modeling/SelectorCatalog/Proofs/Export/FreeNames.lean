import Mathlib.Data.List.Nodup
import Mathlib.Data.List.Perm.Subperm
import SelectorCatalog.Proofs.Export.Cleaning

/-!
# Every source gets a name of its own

The numbered forms of a name are all different, so the search for a free one ends
(`firstFree_unused`), and no name is given away twice (`plan_distinct`). A source whose cleaned name
no other source has is renamed only if an earlier source that collides was given that name with a
number (`plan_keeps_iff`).
-/

set_option autoImplicit false

namespace SelectorCatalog.Export

/-! ## The search for a free name -/

/-- What the search for a free name ends with: the name itself, or else its numbered form with the
least number, from one on, that is free. -/
inductive FirstFree (used : List String) (name : String) : String → Prop
  | itself (free : name ∉ used) : FirstFree used name name
  | numbered (n : Nat) (collides : name ∈ used) (positive : 0 < n) (free : numbered name n ∉ used)
      (least : ∀ m, 0 < m → m < n → Export.numbered name m ∈ used) :
        FirstFree used name (numbered name n)

variable {used : List String} {name target : String}

theorem numbered_injective (name : String) : Function.Injective (numbered name) := by
  intro m n same
  have spelled : toString m = toString n :=
    (String.append_right_inj _).1 ((String.append_left_inj _).1 same)
  have digits : Nat.toDigits 10 m = Nat.toDigits 10 n := by
    simpa [Nat.toString_eq_repr, Nat.toList_repr] using congrArg String.toList spelled
  simpa using congrArg (Nat.ofDigitChars 10 · 0) digits

/-- One more number than there are used names is enough: the numbered forms are all different. -/
theorem exists_free_number (used : List String) (name : String) :
    ∃ k ∈ List.range (used.length + 1), numbered name (k + 1) ∉ used := by
  by_contra none_free
  simp only [not_exists, not_and, not_not] at none_free
  have distinct : ((List.range (used.length + 1)).map fun k => numbered name (k + 1)).Nodup :=
    List.nodup_range.map fun j k same => Nat.succ.inj (numbered_injective name same)
  have all_used : ((List.range (used.length + 1)).map fun k => numbered name (k + 1)) ⊆ used := by
    intro form mem
    obtain ⟨k, hk, rfl⟩ := List.mem_map.1 mem
    exact none_free k hk
  have few := (distinct.subperm all_used).length_le
  simp only [List.length_map, List.length_range] at few
  omega

/-- **The search ends with the first free name.** -/
theorem firstFree_unused (used : List String) (name : String) :
    FirstFree used name (unused used name) := by
  unfold unused
  split
  · rename_i collides
    simp only [List.find?_map]
    obtain ⟨k, hk, free⟩ := exists_free_number used name
    cases found : (List.range (used.length + 1)).find?
      ((fun n => !used.contains (numbered name n)) ∘ (· + 1)) with
    | none =>
      have taken := List.find?_eq_none.1 found k hk
      simp [free] at taken
    | some n =>
      obtain ⟨here, -, before⟩ := List.find?_range_eq_some.1 found
      simp only [Function.comp_apply, Bool.not_eq_true', Bool.not_not, List.contains_eq_mem,
        decide_eq_false_iff_not, decide_eq_true_eq] at here before
      refine .numbered (n + 1) (by simpa using collides) n.succ_pos here fun m positive less => ?_
      obtain ⟨m, rfl⟩ := Nat.exists_eq_add_of_lt positive
      rw [Nat.zero_add] at less ⊢
      exact before m (Nat.lt_of_succ_lt_succ less)
  · rename_i free
    exact .itself (by simpa using free)

/-- A name that the search ends with is free. -/
theorem FirstFree.not_mem (h : FirstFree used name target) : target ∉ used := by
  cases h with
  | itself free => exact free
  | numbered n _ _ free _ => exact free

/-- The search has one end. -/
theorem FirstFree.unique {other : String} (h : FirstFree used name target)
    (g : FirstFree used name other) :
    target = other := by
  cases h with
  | itself free =>
    cases g with
    | itself => rfl
    | numbered n collides => exact absurd collides free
  | numbered m collides positive free least =>
    cases g with
    | itself unused => exact absurd collides unused
    | numbered n _ later unused before =>
      rcases Nat.lt_trichotomy m n with less | rfl | less
      · exact absurd (before m positive less) free
      · rfl
      · exact absurd (least n later less) unused

/-! ## Names by position -/

/-- The name that a source asks for: its cleaned name, with a suffix if that is no other
source's. -/
def fullName (sources : List (String × String)) (source : String × String) : String :=
  completed ((sources.map fun s => sanitize s.1) ++ reserved) (sanitize source.1)

/-- The names that are used when it is a source's turn. -/
def usedBefore (sources : List (String × String)) (i : Nat) : List String :=
  reserved ++ ((plan sources).take i).map Prod.fst

theorem length_planNames (taken used names : List String) :
    (planNames taken used names).length = names.length := by
  induction names generalizing used with
  | nil => rfl
  | cons name rest ih => rw [planNames, List.length_cons, List.length_cons, ih]

/-- A name is chosen by the names before it. -/
theorem getElem?_planNames (taken used names : List String) (i : Nat) :
    (planNames taken used names)[i]? =
      names[i]?.map fun name => unused (used ++ (planNames taken used names).take i)
        (completed taken name) := by
  induction names generalizing used i with
  | nil => rfl
  | cons name rest ih =>
    cases i with
    | zero => simp [planNames]
    | succ i => simp [planNames, ih]

variable (sources : List (String × String))

theorem names_plan :
    (plan sources).map Prod.fst =
      planNames ((sources.map fun s => sanitize s.1) ++ reserved) reserved
        (sources.map fun s => sanitize s.1) := by
  rw [plan, List.map_fst_zip]
  simp [length_planNames]

theorem contents_plan : (plan sources).map Prod.snd = sources.map Prod.snd := by
  rw [plan, List.map_snd_zip]
  simp [length_planNames]

theorem length_plan : (plan sources).length = sources.length := by
  simpa using congrArg List.length (contents_plan sources)

theorem getElem?_names_plan (i : Fin sources.length) :
    ((plan sources).map Prod.fst)[i.val]? =
      some (unused (usedBefore sources i) (fullName sources sources[i.val])) := by
  rw [usedBefore, List.map_take, names_plan, getElem?_planNames]
  simp [fullName]

/-- **Each source gets the first free form of the name that it asks for**, and its content goes
there. -/
theorem getElem?_plan (i : Fin sources.length) : ∃ target,
    (plan sources)[i.val]? = some (target, sources[i.val].2) ∧
      FirstFree (usedBefore sources i) (fullName sources sources[i.val]) target := by
  have name := getElem?_names_plan sources i
  have content := congrArg (·[i.val]?) (contents_plan sources)
  simp only [List.getElem?_map, Option.map_eq_some_iff] at name content
  obtain ⟨entry, found, named⟩ := name
  have kept : entry.2 = sources[i.val].2 := by
    rw [found] at content
    simpa using content
  exact ⟨entry.1, found.trans (congrArg some (Prod.ext rfl kept)), named ▸ firstFree_unused _ _⟩

/-- A name is used before a turn if a document has it or an earlier source gets it. -/
theorem mem_usedBefore {i : Nat} {name : String} :
    name ∈ usedBefore sources i ↔ name ∈ reserved ∨
      ∃ j : Fin sources.length, j.val < i ∧
        FirstFree (usedBefore sources j) (fullName sources sources[j.val]) name := by
  rw [usedBefore, List.mem_append, List.map_take, List.mem_take_iff_getElem]
  refine or_congr_right ⟨?_, ?_⟩
  · rintro ⟨j, bound, rfl⟩
    have listed : j < ((plan sources).map Prod.fst).length := by omega
    have less : j < sources.length := by rwa [List.length_map, length_plan] at listed
    have given := getElem?_names_plan sources ⟨j, less⟩
    rw [List.getElem?_eq_getElem listed, Option.some.injEq] at given
    rw [given]
    exact ⟨⟨j, less⟩, show j < i by omega, firstFree_unused _ _⟩
  · rintro ⟨j, less, first⟩
    obtain ⟨bound, given⟩ := List.getElem?_eq_some_iff.1 (getElem?_names_plan sources j)
    refine ⟨j, by omega, ?_⟩
    rw [given]
    exact (firstFree_unused _ _).unique first

theorem usedBefore_length :
    usedBefore sources sources.length = reserved ++ (plan sources).map Prod.fst := by
  rw [usedBefore, ← length_plan, List.take_length]

/-! ## Distinct names -/

/-- **No name is used twice**, not by two sources and not by a source and a document of the
folder. -/
theorem nodup_plan : (reserved ++ (plan sources).map Prod.fst).Nodup := by
  -- a name is not used when it is given, neither for a document nor for an earlier source
  have free (i : Nat) (h : i < ((plan sources).map Prod.fst).length) :
      ((plan sources).map Prod.fst)[i] ∉ reserved ++ ((plan sources).map Prod.fst).take i := by
    have bound : i < sources.length := by rwa [List.length_map, length_plan] at h
    have found := getElem?_names_plan sources ⟨i, bound⟩
    rw [List.getElem?_eq_getElem h, Option.some.injEq] at found
    have unused := (firstFree_unused (usedBefore sources i) (fullName sources sources[i])).not_mem
    rw [found, ← List.map_take]
    exact unused
  refine List.nodup_append.2 ⟨by decide, ?_, ?_⟩
  · refine List.pairwise_iff_getElem.2 fun i j hi hj before same =>
      free j hj (List.mem_append_right _ ?_)
    rw [← same, List.mem_take_iff_getElem]
    exact ⟨i, by omega, rfl⟩
  · rintro name own target mem rfl
    obtain ⟨i, h, rfl⟩ := List.mem_iff_getElem.1 mem
    exact free i h (List.mem_append_left _ own)

/-- No cleaned name is a doubled root with a suffix. -/
theorem sanitize_ne_root_sol (name : String) : sanitize name ≠ "//.sol" := by
  by_cases doubled : HasDoubledRoot name
  · rw [sanitize_of_doubled doubled]
    split
    · decide
    · intro same
      have third := congrArg (·.toList[2]?) same
      simp at third
  · intro same
    exact (isInner_sanitize doubled).relative (by rw [same]; decide)

/-- Whatever name a source asks for has a last component, and stands in the directory of its cleaned
name. -/
theorem endsIn_fullName (source : String × String) : ∃ last,
    Path.EndsIn (fullName sources source) (Path.ofText (sanitize source.1)).parent last := by
  rcases endsIn_sanitize source.1 with root | ⟨directory, last, ends⟩
  · have full : fullName sources source = Path.render ⟨.doubled, [] ++ [".sol"]⟩ := by
      have free : "//.sol" ∉ (sources.map fun s => sanitize s.1) ++ reserved := by
        rw [List.mem_append, List.mem_map, not_or]
        exact ⟨fun ⟨s, _, same⟩ => sanitize_ne_root_sol s.1 same, by decide⟩
      have suffix : (Path.ofText "//").suffix.isEmpty = true := by decide
      rw [fullName, root, completed]
      refine if_pos ?_
      rw [suffix, List.contains_eq_mem]
      simpa using free
    rw [full, root]
    exact ⟨_, Path.endsIn_render .doubled (by simp) (by constructor <;> decide)⟩
  · rw [ends.parent, fullName, completed]
    split
    · exact ⟨_, ends.append (by decide)⟩
    · exact ⟨_, ends⟩

/-- A target stands in the directory of the cleaned name. -/
theorem FirstFree.endsIn {directory : Path} {last : String} (h : FirstFree used name target)
    (ends : Path.EndsIn name directory last) :
    ∃ final, Path.EndsIn target directory final ∧
      (final = last ∨ ∃ n, final = numberedName last n) := by
  cases h with
  | itself => exact ⟨last, ends, .inl rfl⟩
  | numbered n => exact ⟨_, endsIn_numbered ends n, .inr ⟨n, rfl⟩⟩

/-- **Planned names are unique and complete.** The contents are those of the sources in order; no
two targets are the same, and none is the name of a document; and the search for each of them ends,
with the first free form of a name that has a last component. -/
theorem plan_distinct :
    (plan sources).map Prod.snd = sources.map Prod.snd ∧
    (reserved ++ (plan sources).map Prod.fst).Nodup ∧
    ∀ i : Fin sources.length, ∃ target,
      (plan sources)[i.val]? = some (target, sources[i.val].2) ∧
      (Path.ofText (fullName sources sources[i.val])).parts ≠ [] ∧
      FirstFree (usedBefore sources i) (fullName sources sources[i.val]) target := by
  refine ⟨contents_plan sources, nodup_plan sources, fun i => ?_⟩
  obtain ⟨target, found, first⟩ := getElem?_plan sources i
  obtain ⟨last, ends⟩ := endsIn_fullName sources sources[i.val]
  exact ⟨target, found, ends.parts_ne_nil, first⟩

/-! ## Sources that keep their names -/

/-- A source asks for its cleaned name or for a name that is no cleaned name. -/
theorem fullName_cases (source : String × String) :
    fullName sources source = sanitize source.1 ∨
      ∀ other ∈ sources, fullName sources source ≠ sanitize other.1 := by
  rw [fullName, completed]
  split
  · rename_i free
    refine .inr fun other mem same => ?_
    simp only [Bool.and_eq_true, Bool.not_eq_true', List.contains_eq_mem, decide_eq_false_iff_not,
      List.mem_append, not_or] at free
    exact free.2.1 (List.mem_map.2 ⟨other, mem, same.symm⟩)
  · exact .inl rfl

theorem fullName_of_suffix {source : String × String}
    (suffixed : (Path.ofText (sanitize source.1)).suffix ≠ "") :
    fullName sources source = sanitize source.1 := by
  have found : (Path.ofText (sanitize source.1)).suffix.isEmpty = false := by
    rwa [String.isEmpty_eq_false_iff]
  simp [fullName, completed, found]

/-- **A source with a name of its own keeps it, unless an earlier source got it with a number.** Let
the cleaned name of a source have a suffix, and be no document's and no other source's name. The
source goes to that name exactly if no earlier source, whose own name was used, was given it as the
first numbered form that was free. -/
theorem plan_keeps_iff (i : Fin sources.length)
    (suffixed : (Path.ofText (sanitize sources[i.val].1)).suffix ≠ "")
    (plain : sanitize sources[i.val].1 ∉ reserved)
    (apart : ∀ j : Fin sources.length, j ≠ i →
    sanitize sources[j.val].1 ≠ sanitize sources[i.val].1) :
    (plan sources)[i.val]? = some (sanitize sources[i.val].1, sources[i.val].2) ↔
      ¬∃ j < i, fullName sources sources[j.val] ∈ usedBefore sources j ∧
        FirstFree (usedBefore sources j) (fullName sources sources[j.val])
          (sanitize sources[i.val].1) := by
  obtain ⟨target, found, first⟩ := getElem?_plan sources i
  rw [fullName_of_suffix sources suffixed] at first
  have kept : target = sanitize sources[i.val].1 ↔
      sanitize sources[i.val].1 ∉ usedBefore sources i := by
    constructor
    · intro same
      rw [same] at first
      exact first.not_mem
    · intro free
      exact first.unique (.itself free)
  -- an earlier source that got its own name did not get this one
  have collides {j : Fin sources.length} (less : j < i)
      (given : FirstFree (usedBefore sources j) (fullName sources sources[j.val])
        (sanitize sources[i.val].1)) :
      fullName sources sources[j.val] ∈ usedBefore sources j := by
    by_contra free
    have same := given.unique (.itself free)
    rcases fullName_cases sources sources[j.val] with own | other
    · exact apart j (Fin.ne_of_lt less) (own.symm.trans same.symm)
    · exact other _ (List.getElem_mem i.isLt) same.symm
  rw [found, Option.some.injEq, Prod.mk.injEq, and_iff_left rfl, kept, mem_usedBefore,
    or_iff_right plain]
  refine not_congr ⟨?_, ?_⟩
  · rintro ⟨j, less, given⟩
    exact ⟨j, less, collides less given, given⟩
  · rintro ⟨j, less, -, given⟩
    exact ⟨j, less, given⟩

/-- Two sources of one name before another one. -/
def sourcesBefore (name : String) :
    List (String × String) := [("A.sol", "1"), ("A.sol", "2"), (name, "3")]

/-- The second source gets the number one, and the third one keeps a name with another number. -/
theorem plan_keeps_otherNumber :
    let sources := sourcesBefore "A_2.sol"
    let third : Fin sources.length := ⟨2, by decide⟩
    plan sources = [("A.sol", "1"), ("A_1.sol", "2"), ("A_2.sol", "3")] ∧
    (Path.ofText (sanitize sources[third.val].1)).suffix ≠ "" ∧
      sanitize sources[third.val].1 ∉ reserved ∧
    (∀ j : Fin sources.length, j ≠ third →
    sanitize sources[j.val].1 ≠ sanitize sources[third.val].1) ∧
    ¬∃ j < third, fullName sources sources[j.val] ∈ usedBefore sources j ∧
      FirstFree (usedBefore sources j) (fullName sources sources[j.val])
        (sanitize sources[third.val].1) := by
  intro sources third
  have planned : plan sources = [("A.sol", "1"), ("A_1.sol", "2"), ("A_2.sol", "3")] := by
    decide +kernel
  have suffixed : (Path.ofText (sanitize sources[third.val].1)).suffix ≠ "" := by decide +kernel
  have plain : sanitize sources[third.val].1 ∉ reserved := by decide +kernel
  have apart : ∀ j : Fin sources.length, j ≠ third →
      sanitize sources[j.val].1 ≠ sanitize sources[third.val].1 := by
    decide +kernel
  have found : (plan sources)[third.val]? =
      some (sanitize sources[third.val].1, sources[third.val].2) := by
    decide +kernel
  exact ⟨planned, suffixed, plain, apart,
    (plan_keeps_iff sources third suffixed plain apart).1 found⟩

/-- **Not every source with a name of its own keeps it**: the number of an earlier source makes the
same name. -/
theorem plan_renames_third :
    (Path.ofText (sanitize "A_1.sol")).suffix ≠ "" ∧ sanitize "A_1.sol" ∉ reserved ∧
    (∀ other ∈ ["A.sol", "A.sol"], sanitize other ≠ sanitize "A_1.sol") ∧
    plan (sourcesBefore "A_1.sol") = [("A.sol", "1"), ("A_1.sol", "2"), ("A_1_1.sol", "3")] := by
  decide +kernel

end SelectorCatalog.Export
