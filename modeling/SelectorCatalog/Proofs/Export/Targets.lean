import Mathlib.Data.List.Forall2
import SelectorCatalog.Export.Layout
import SelectorCatalog.Proofs.Files.Written

/-!
# Where sources are exported to

A cleaned name stays below the folder, unless exactly two slashes stood in front of the name
(`isInner_sanitize_iff`): two slashes are a root of their own, which cleaning keeps. What is made of
a cleaned name, a suffix or a number, neither leaves the folder nor leads back to it
(`Derived.isInner`, `Derived.head?`).
-/

set_option autoImplicit false

namespace SelectorCatalog.Export

open SelectorCatalog.Path (IsName IsInner)

/-! ## Cleaned names -/

/-- What a name is read from when it is cleaned. -/
def withoutDrive (name : String) : List Char :=
  dropDrive (name.toList.map fun c => if c == '\\' then '/' else c)

/-- Exactly two slashes stand in front of a name. -/
def HasDoubledRoot (name : String) : Prop :=
  ∃ rest, withoutDrive name = '/' :: '/' :: rest ∧ rest.head? ≠ some '/'

/-- The components of a name that are kept, its root aside. -/
def keptNames (name : String) : List String := (Path.partsOf (withoutDrive name)).filter isKept

theorem rootOf_eq_doubled_iff {s : List Char} :
    Path.rootOf s = .doubled ↔ ∃ rest, s = '/' :: '/' :: rest ∧ rest.head? ≠ some '/' := by
  constructor
  · intro h
    unfold Path.rootOf at h
    split at h
    · cases h
    · rename_i rest other
      refine ⟨rest, rfl, fun slash => ?_⟩
      obtain ⟨more, rfl⟩ := List.head?_eq_some_iff.1 slash
      exact other more rfl
    · cases h
    · cases h
  · rintro ⟨rest, rfl, single⟩
    cases rest with
    | nil => rfl
    | cons c more =>
      have other : c ≠ '/' := fun e => single (e ▸ rfl)
      simp [Path.rootOf, other]

theorem isName_of_mem_keptNames {name part : String} (h : part ∈ keptNames name) : IsName part := by
  obtain ⟨mem, kept⟩ := List.mem_filter.1 h
  refine Path.isName_of_mem_partsOf mem ?_
  rintro rfl
  simp [isKept] at kept

/-- The components that cleaning keeps; two slashes in front are one of them. -/
def keptComponents (name : String) : List String :=
  (Path.ofText (String.ofList (withoutDrive name))).components.filter isKept

theorem sanitize_eq (name : String) :
    sanitize name =
      if ("/".intercalate (keptComponents name)).isEmpty then namelessSource
      else "/".intercalate (keptComponents name) := rfl

theorem keptComponents_of_doubled {name : String} (h : HasDoubledRoot name) :
    keptComponents name = "//" :: keptNames name := by
  have root := rootOf_eq_doubled_iff.2 h
  have kept : isKept "//" = true := by decide
  simp [keptComponents, Path.ofText, Path.components, root, PathRoot.text, kept, keptNames]

theorem keptComponents_of_not {name : String} (h : ¬HasDoubledRoot name) :
    keptComponents name = keptNames name := by
  have dropped : isKept "/" = false := by decide
  cases root : Path.rootOf (withoutDrive name) with
  | relative => simp [keptComponents, Path.ofText, Path.components, root, keptNames]
  | absolute =>
    simp [keptComponents, Path.ofText, Path.components, root, PathRoot.text, dropped, keptNames]
  | doubled => exact absurd (rootOf_eq_doubled_iff.1 root) h

theorem head?_sanitize {name : String} (h : HasDoubledRoot name) :
    (sanitize name).toList.head? = some '/' := by
  have head : ("/".intercalate ("//" :: keptNames name)).toList.head? = some '/' := by
    rw [Path.toList_joined]
    cases keptNames name <;> simp [List.intercalate_cons_cons]
  have nonempty : ("/".intercalate ("//" :: keptNames name)).isEmpty = false := by
    rw [String.isEmpty_eq_false_iff]
    rintro e
    rw [e] at head
    cases head
  rw [sanitize_eq, keptComponents_of_doubled h, nonempty]
  exact head

theorem isName_namelessSource : IsName namelessSource := by
  constructor <;> decide

theorem isInner_sanitize {name : String} (h : ¬HasDoubledRoot name) : IsInner (sanitize name) := by
  rw [sanitize_eq, keptComponents_of_not h]
  split
  · exact Path.isInner_iff.2
      ⟨[namelessSource], List.cons_ne_nil _ _, by simpa using isName_namelessSource, by simp⟩
  · rename_i nonempty
    refine Path.isInner_iff.2 ⟨keptNames name, ?_, fun _ => isName_of_mem_keptNames, rfl⟩
    rintro none_left
    simp [none_left] at nonempty

/-- **A cleaned name stays below the folder exactly if the name had no doubled root.** -/
theorem isInner_sanitize_iff (name : String) : IsInner (sanitize name) ↔ ¬HasDoubledRoot name :=
  ⟨fun inner doubled => inner.relative (head?_sanitize doubled), isInner_sanitize⟩

/-! ## Suffixes and numbers -/

/-- The last component of a name with a number before its suffix. -/
def numberedName (last : String) (n : Nat) : String :=
  (Path.splitName last).1 ++ "_" ++ toString n ++ (Path.splitName last).2

/-- The two parts of a name make up the name. -/
theorem splitName_append (name : String) :
    (Path.splitName name).1 ++ (Path.splitName name).2 = name := by
  unfold Path.splitName
  simp only
  split
  · rename_i c stem found
    split
    · simp
    · have point : c = '.' := by
        have stops := List.head?_dropWhile_not (fun x => x != '.') name.toList.reverse
        simpa [found] using stops
      have whole :=
        List.takeWhile_append_dropWhile (p := fun x => x != '.') (l := name.toList.reverse)
      rw [found, point] at whole
      apply String.toList_inj.1
      have letters := congrArg List.reverse whole
      simpa using letters
  · simp

theorem not_mem_splitName {name : String} (h : '/' ∉ name.toList) :
    '/' ∉ (Path.splitName name).1.toList ∧ '/' ∉ (Path.splitName name).2.toList := by
  rw [← splitName_append name, String.toList_append, List.mem_append, not_or] at h
  exact h

theorem not_mem_toString (n : Nat) : '/' ∉ (toString n).toList := by
  intro mem
  have digit := Nat.isDigit_of_mem_toDigits (by decide) (by decide) (Nat.toList_repr ▸ mem)
  exact absurd digit (by decide)

/-- A number never makes a step upwards of a name. -/
theorem isName_numberedName {last : String} (h : '/' ∉ last.toList) (n : Nat) :
    IsName (numberedName last n) := by
  have mark : '_' ∈ (numberedName last n).toList := by simp [numberedName]
  have ⟨stem, ending⟩ := not_mem_splitName h
  refine Path.isName_of_mem mark (by decide) ?_
  simp only [numberedName, String.toList_append, List.mem_append, not_or]
  exact ⟨⟨⟨stem, by decide⟩, not_mem_toString n⟩, ending⟩

/-- **A number goes into the last component**, whatever the root. -/
theorem numbered_eq_render {s last : String} {directory : Path}
    (h : Path.EndsIn s directory last) (n : Nat) :
    numbered s n = Path.render ⟨directory.root, directory.parts ++ [numberedName last n]⟩ := by
  rw [numbered, h.ofText, Path.join_relative]
  simp [Path.suffix, Path.withoutSuffix, Path.name, Path.render_concat_append, numberedName]

theorem isInner_numbered {name : String} (h : IsInner name) (n : Nat) :
    IsInner (numbered name n) := by
  obtain ⟨parts, last, named, whole, rfl⟩ := Path.isInner_iff_concat.1 h
  rw [numbered_eq_render (Path.endsIn_joined named whole), Path.render_joined (by simp)]
  exact Path.isInner_iff_concat.2 ⟨parts, _, named, isName_numberedName whole.whole n, rfl⟩

theorem isInner_append_sol {name : String} (h : IsInner name) : IsInner (name ++ ".sol") := by
  obtain ⟨parts, last, named, whole, rfl⟩ := Path.isInner_iff_concat.1 h
  rw [Path.joined_concat_append]
  exact Path.isInner_iff_concat.2 ⟨parts, _, named, whole.append (by decide), rfl⟩

theorem head?_append {s : String} (h : s.toList.head? = some '/') (t : String) :
    (s ++ t).toList.head? = some '/' := by
  rw [String.toList_append, List.head?_append, h]
  rfl

theorem head?_render {p : Path} (h : p.root ≠ .relative) : p.render.toList.head? = some '/' := by
  cases e : p.root with
  | relative => exact absurd e h
  | absolute => simp [Path.render, e, PathRoot.text]
  | doubled => simp [Path.render, e, PathRoot.text]

theorem head?_numbered {name : String} (h : name.toList.head? = some '/') (n : Nat) :
    (numbered name n).toList.head? = some '/' := by
  have root : (Path.ofText name).withoutSuffix.root ≠ .relative := by
    unfold Path.withoutSuffix
    split <;> exact Path.rootOf_ne_relative h
  exact head?_append (head?_append (head?_append (head?_render root) _) _) _

/-! ## Targets -/

/-- What may become of a cleaned name: it gets a suffix or not, and then a number or not. -/
def Derived (name target : String) : Prop :=
  ∃ full, (full = name ∨ full = name ++ ".sol") ∧ (target = full ∨ ∃ n, target = numbered full n)

variable {name target : String}

theorem Derived.isInner (h : Derived name target) (inner : IsInner name) : IsInner target := by
  obtain ⟨full, complete, numbers⟩ := h
  have kept : IsInner full := by
    rcases complete with rfl | rfl
    · exact inner
    · exact isInner_append_sol inner
  rcases numbers with rfl | ⟨n, rfl⟩
  · exact kept
  · exact isInner_numbered kept n

theorem Derived.head? (h : Derived name target) (slash : name.toList.head? = some '/') :
    target.toList.head? = some '/' := by
  obtain ⟨full, complete, numbers⟩ := h
  have kept : full.toList.head? = some '/' := by
    rcases complete with rfl | rfl
    · exact slash
    · exact head?_append slash _
  rcases numbers with rfl | ⟨n, rfl⟩
  · exact kept
  · exact head?_numbered kept n

theorem derived_unused (taken used : List String) (name : String) :
    Derived name (unused used (completed taken name)) := by
  refine ⟨completed taken name, ?_, ?_⟩
  · unfold completed
    simp only
    split
    · exact .inr rfl
    · exact .inl rfl
  · unfold unused
    split
    · simp only
      split
      · exact .inr ⟨_, rfl⟩
      · exact .inl rfl
    · exact .inl rfl

/-- A target of an exported folder, beside the source that goes there. -/
structure IsTarget (source target : String × String) : Prop where
  derived : Derived (sanitize source.1) target.1
  content : target.2 = source.2

/-- **Every source has a target that is made of its cleaned name**, and its content goes there. -/
theorem plan_targets (sources : List (String × String)) :
    List.Forall₂ IsTarget sources (plan sources) := by
  have pairs (taken used : List String) : List.Forall₂ IsTarget sources
      ((planNames taken used (sources.map fun s => sanitize s.1)).zip (sources.map Prod.snd)) := by
    induction sources generalizing used with
    | nil => exact .nil
    | cons s rest ih => exact .cons ⟨derived_unused taken used _, rfl⟩ (ih _)
  exact pairs _ _

theorem exists_source {sources : List (String × String)} {target : String × String}
    (h : target ∈ plan sources) : ∃ source ∈ sources, IsTarget source target := by
  have targets := plan_targets sources
  obtain ⟨i, hi, rfl⟩ := List.mem_iff_getElem.1 h
  have bound : i < sources.length := targets.length_eq ▸ hi
  exact ⟨sources[i], List.getElem_mem bound, targets.get bound hi⟩

theorem IsTarget.isInner_iff {source target : String × String} (h : IsTarget source target) :
    IsInner target.1 ↔ ¬HasDoubledRoot source.1 := by
  constructor
  · intro inner doubled
    exact inner.relative (h.derived.head? (head?_sanitize doubled))
  · intro single
    exact h.derived.isInner (isInner_sanitize single)

/-- The target of a source with a doubled root does not depend on the folder. -/
theorem IsTarget.join_of_doubled {source target : String × String} (h : IsTarget source target)
    (doubled : HasDoubledRoot source.1) (folder : Path) :
    folder.join (.ofText target.1) = .ofText target.1 :=
  Path.join_ofText_of_root (h.derived.head? (head?_sanitize doubled)) folder

end SelectorCatalog.Export
