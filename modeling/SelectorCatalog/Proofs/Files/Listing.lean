import Mathlib.Data.List.Nodup
import SelectorCatalog.Proofs.Files.Confined
import SelectorCatalog.Proofs.Files.Inner

/-!
# What a tree lists

A tree lists every location once, and no starting point; steps that write keep it so
(`Tree.keepsListing_place`). What is listed below a location is then exactly what is found there
(`Tree.IsWellFormed.file_mem_below`), once each (`Tree.IsWellFormed.nodup_below`).
-/

set_option autoImplicit false

namespace SelectorCatalog

namespace Tree

/-- Every location is listed once, and no starting point is listed. -/
structure IsWellFormed (t : Tree) : Prop where
  distinct : (t.entries.map Prod.fst).Nodup
  listed : ∀ x ∈ t.entries, isStart x.1 = false

variable {t : Tree} {l : Location}

theorem IsWellFormed.put (h : t.IsWellFormed) (inner : isStart l = false) (e : Entry) :
    (t.put l e).IsWellFormed := by
  refine ⟨?_, fun x mem => ?_⟩
  · rw [Tree.put, List.map_append, List.nodup_append]
    refine ⟨h.distinct.sublist (List.filter_sublist.map _), by simp, ?_⟩
    intro m mem n same
    obtain ⟨x, kept, rfl⟩ := List.mem_map.1 mem
    rw [List.map_singleton, List.mem_singleton] at same
    rw [same]
    exact bne_iff_ne.1 (List.mem_filter.1 kept).2
  · rcases List.mem_append.1 mem with old | new
    · exact h.listed x (List.mem_filter.1 old).1
    · rw [List.mem_singleton.1 new]
      exact inner

/-- A step that keeps a tree well formed. -/
def KeepsListing (t t' : Tree) : Prop := t.IsWellFormed → t'.IsWellFormed

theorem isPreorder_keepsListing : IsPreorder KeepsListing where
  refl _ := id
  trans h g := g ∘ h

theorem keepsListing_put_directory (free : t.at? l = none) : t.KeepsListing (t.put l .directory) :=
  fun h => h.put (isStart_eq_false_of_none free) _

theorem keepsListing_put_file (other : t.at? l ≠ some .directory) (content : List UInt8) :
    t.KeepsListing (t.put l (.file content)) :=
  fun h => h.put (isStart_eq_false_of_ne other) _

theorem keepsListing_makeDirectories (p : Path) :
    TreeStep.Relates KeepsListing (makeDirectories p) :=
  relates_makeDirectories isPreorder_keepsListing fun _ => keepsListing_put_directory

theorem keepsListing_write (p : Path) (content : List UInt8) :
    TreeStep.Relates KeepsListing (write p content) :=
  relates_write isPreorder_keepsListing fun other => keepsListing_put_file other content

/-- **Placing a file keeps a tree well formed**, whatever fails on the way. -/
theorem keepsListing_place (p : Path) (content : List UInt8) :
    TreeStep.Relates KeepsListing (place p content) :=
  (keepsListing_makeDirectories p.parent).bind isPreorder_keepsListing fun _ =>
    keepsListing_write p content

/-! ## What is listed -/

theorem IsWellFormed.at?_of_mem (h : t.IsWellFormed) {e : Entry} (mem : (l, e) ∈ t.entries) :
    t.at? l = some e := by
  rw [at?, if_neg (by simp [h.listed _ mem])]
  obtain ⟨before, after, split⟩ := List.append_of_mem mem
  refine List.lookup_eq_some_iff.2 ⟨before, after, split, fun x early => ?_⟩
  have distinct := h.distinct
  rw [split, List.map_append, List.nodup_append] at distinct
  have other := distinct.2.2 x.1 (List.mem_map_of_mem early) l (by simp)
  simpa using other.symm

theorem IsWellFormed.file_mem_entries (h : t.IsWellFormed) {content : List UInt8} :
    (l, .file content) ∈ t.entries ↔ t.at? l = some (.file content) := by
  refine ⟨h.at?_of_mem, fun found => ?_⟩
  have inner : isStart l = false := isStart_eq_false_of_ne (t := t) (by simp [found])
  rw [at?, if_neg (by simp [inner])] at found
  obtain ⟨before, after, split, -⟩ := List.lookup_eq_some_iff.1 found
  simp [split]

theorem mem_below {names : List String} {e : Entry} :
    (names, e) ∈ t.below l ↔ names ≠ [] ∧ (l ++ names, e) ∈ t.entries := by
  rw [below, List.mem_mergeSort, List.mem_filterMap]
  constructor
  · rintro ⟨x, mem, shown⟩
    rw [Option.ite_none_right_eq_some, Option.some.injEq, Prod.mk.injEq, Bool.and_eq_true,
      List.isPrefixOf_iff_prefix, bne_iff_ne] at shown
    obtain ⟨⟨⟨rest, split⟩, other⟩, rfl, rfl⟩ := shown
    rw [← split, List.drop_left, split]
    refine ⟨?_, mem⟩
    rintro rfl
    exact other (by rw [← split, List.append_nil])
  · rintro ⟨some_left, mem⟩
    refine ⟨_, mem, ?_⟩
    simpa [List.isPrefixOf_iff_prefix] using some_left

/-- **What is listed below a location are the files there.** -/
theorem IsWellFormed.file_mem_below (h : t.IsWellFormed) {names : List String}
    {content : List UInt8} :
    (names, .file content) ∈ t.below l ↔
      names ≠ [] ∧ t.at? (l ++ names) = some (.file content) := by
  rw [mem_below, h.file_mem_entries]

theorem IsWellFormed.nodup_below (h : t.IsWellFormed) (l : Location) :
    ((t.below l).map Prod.fst).Nodup := by
  let rest? (m : Location) : Option (List String) :=
    if l.isPrefixOf m && m != l then some (m.drop l.length) else none
  have names : (t.entries.filterMap fun x =>
      if l.isPrefixOf x.1 && x.1 != l then some (x.1.drop l.length, x.2) else none).map Prod.fst =
      (t.entries.map Prod.fst).filterMap rest? := by
    rw [List.map_filterMap, List.filterMap_map]
    congr 1
    funext x
    by_cases under : (l.isPrefixOf x.1 && x.1 != l) = true <;>
      simp only [rest?, Function.comp_apply, under, if_true, Bool.false_eq_true, if_false,
        Option.map_some, Option.map_none]
  rw [below, ((List.mergeSort_perm _ _).map Prod.fst).nodup_iff, names]
  refine h.distinct.filterMap fun a b names first second => ?_
  rw [Option.mem_def, Option.ite_none_right_eq_some, Option.some.injEq, Bool.and_eq_true,
    List.isPrefixOf_iff_prefix] at first second
  obtain ⟨⟨⟨rest, rfl⟩, -⟩, rfl⟩ := first
  obtain ⟨⟨⟨rest', rfl⟩, -⟩, same⟩ := second
  rw [List.drop_left, List.drop_left] at same
  rw [same]

/-! ## Roots -/

theorem locate_of_directory? {p : Path} (h : t.directory? p = some l) : t.locate p = .ok l := by
  unfold directory? at h
  split at h
  · rename_i m found
    rw [Option.ite_none_right_eq_some, Option.some.injEq] at h
    rw [found, h.2]
  · cases h

theorem no_nul_of_locate {s : String} (h : t.locate (.ofText s) = .ok l) :
    s.toList.contains (Char.ofNat 0) = false := by
  rw [← Bool.not_eq_true, List.contains_iff_mem]
  intro mem
  obtain ⟨part, here, inside⟩ := Path.exists_mem_parts mem (by decide) (by decide)
  rw [locate, if_pos (List.any_eq_true.2 ⟨part, here, by simpa using inside⟩)] at h
  cases h

end Tree

end SelectorCatalog
