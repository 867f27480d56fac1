import SelectorCatalog.Proofs.Files.Inner

/-!
# Written forms of paths

A path whose components lead downwards is read back from its written form (`Path.ofText_render`). A
text that is read as a path with a last component leaves its directory alone when something is put
after it (`Path.EndsIn`), and a name keeps its suffix when something is put before that
(`Path.suffix_between`). Whether a path is above another one depends on the directory of the other
one alone (`Path.isAbove_iff`).
-/

set_option autoImplicit false

namespace SelectorCatalog.Path

theorem IsName.append {last more : String} (h : IsName last) (whole : '/' ∉ more.toList) :
    IsName (last ++ more) := by
  have ⟨nonempty, point, upwards, inner⟩ := isName_iff.1 h
  rw [isName_iff, String.toList_append, List.mem_append, not_or]
  refine ⟨List.append_ne_nil_of_left_ne_nil nonempty _, fun same => ?_,
    fun same => ?_, inner, whole⟩
  · rcases List.append_eq_singleton_iff.1 same with ⟨none_left, -⟩ | ⟨one, -⟩
    · exact nonempty none_left
    · exact point one
  · rcases List.append_eq_cons_iff.1 same with ⟨none_left, -⟩ | ⟨rest, first, others⟩
    · exact nonempty none_left
    · rcases List.append_eq_singleton_iff.1 others.symm with ⟨rfl, -⟩ | ⟨rfl, -⟩
      · exact point first
      · exact upwards first

/-! ## Reading a written path -/

@[simp] theorem partsOf_slash (s : List Char) : partsOf ('/' :: s) = partsOf s := by
  simp [partsOf, List.splitOn_cons_eq_if_modifyHead, isComponent]

theorem partsOf_joined {names : List String} (h : ∀ n ∈ names, IsName n) :
    partsOf ("/".intercalate names).toList = names :=
  congrArg Path.parts (ofText_joined h)

/-- The slashes before joined names tell the root. -/
theorem rootOf_joined {names : List String} (h : ∀ n ∈ names, IsName n) :
    rootOf ('/' :: ("/".intercalate names).toList) = .absolute ∧
      rootOf ('/' :: '/' :: ("/".intercalate names).toList) = .doubled := by
  have head := head?_joined h
  cases e : ("/".intercalate names).toList with
  | nil => exact ⟨rfl, rfl⟩
  | cons c rest =>
    rw [e, List.head?_cons, ne_eq, Option.some.injEq] at head
    constructor <;> simp [rootOf, head]

/-- **A path is read back from its written form**, if its components lead downwards. -/
theorem ofText_render {p : Path} (h : ∀ n ∈ p.parts, IsName n) : ofText p.render = p := by
  have ⟨single, double⟩ := rootOf_joined h
  have components := partsOf_joined h
  rw [toList_joined] at single double components
  obtain ⟨root, parts⟩ := p
  cases root with
  | relative =>
    by_cases none_left : parts = []
    · subst none_left
      rfl
    · simpa [render, PathRoot.text, none_left] using ofText_joined h
  | absolute => simp [render, PathRoot.text, ofText, single, components]
  | doubled => simp [render, PathRoot.text, ofText, double, components]

/-- Three slashes before joined names are read as one. -/
theorem ofText_rooted {names : List String} (h : ∀ n ∈ names, IsName n) :
    ofText ("///" ++ "/".intercalate names) = ⟨.absolute, names⟩ := by
  have components := partsOf_joined h
  rw [toList_joined] at components
  simp [ofText, rootOf, components]

/-! ## Suffixes -/

/-- A name is parted at its last point, if something stands on both sides of it. -/
theorem splitName_pointed {stem ending : List Char} (before : stem ≠ []) (after : ending ≠ [])
    (last : '.' ∉ ending) :
    splitName (String.ofList (stem ++ '.' :: ending)) =
      (String.ofList stem, String.ofList ('.' :: ending)) := by
  have backwards :
      (stem ++ '.' :: ending).reverse = ending.reverse ++ '.' :: stem.reverse := by simp
  have letters : ∀ c ∈ ending.reverse, (c != '.') = true := by
    intro c mem
    rw [bne_iff_ne]
    rintro rfl
    exact last (List.mem_reverse.1 mem)
  have taken : (ending.reverse ++ '.' :: stem.reverse).takeWhile (· != '.') = ending.reverse := by
    simp [List.takeWhile_append_of_pos letters]
  have dropped : (ending.reverse ++ '.' :: stem.reverse).dropWhile (· != '.') =
      '.' :: stem.reverse := by
    simp [List.dropWhile_append_of_pos letters]
  simp [splitName, backwards, taken, dropped, before, after]

theorem exists_pointed {name : String} (h : (splitName name).2 ≠ "") :
    ∃ stem ending, stem ≠ [] ∧ ending ≠ [] ∧ '.' ∉ ending ∧
      name = String.ofList (stem ++ '.' :: ending) := by
  unfold splitName at h
  simp only at h
  split at h
  · rename_i c stem found
    split at h
    · exact absurd rfl h
    · rename_i both
      rw [Bool.or_eq_true, not_or, List.isEmpty_iff, List.isEmpty_iff] at both
      have point : c = '.' := by
        have stops := List.head?_dropWhile_not (fun x => x != '.') name.toList.reverse
        simpa [found] using stops
      have whole :=
        List.takeWhile_append_dropWhile (p := fun x => x != '.') (l := name.toList.reverse)
      rw [found, point] at whole
      refine ⟨stem.reverse, (name.toList.reverse.takeWhile (· != '.')).reverse,
        by simpa using both.2, by simpa using both.1, fun mem => ?_, ?_⟩
      · exact absurd (List.all_eq_true.1 List.all_takeWhile '.' (List.mem_reverse.1 mem))
          (by decide)
      · apply String.toList_inj.1
        simpa using (congrArg List.reverse whole).symm
  · exact absurd rfl h

/-- What is put between the stem and the suffix of a name leaves the suffix. -/
theorem suffix_between {name : String} (h : (splitName name).2 ≠ "") (between : String) :
    (splitName ((splitName name).1 ++ between ++ (splitName name).2)).2 = (splitName name).2 := by
  obtain ⟨stem, ending, before, after, last, rfl⟩ := exists_pointed h
  rw [splitName_pointed before after last]
  have longer : String.ofList stem ++ between ++ String.ofList ('.' :: ending) =
      String.ofList ((stem ++ between.toList) ++ '.' :: ending) := by
    apply String.toList_inj.1
    simp
  rw [longer, splitName_pointed (List.append_ne_nil_of_left_ne_nil before _) after last]

/-! ## What is put after a path -/

/-- The text is read as a name in a directory, and what is put after the text is put after the
name. -/
structure EndsIn (s : String) (directory : Path) (last : String) : Prop where
  inner : ∀ n ∈ directory.parts, IsName n
  named : IsName last
  read : ∀ more : String, '/' ∉ more.toList → ofText (s ++ more) = directory.join ⟨.relative,
    [last ++ more]⟩

namespace EndsIn

variable {s last : String} {directory : Path}

theorem ofText (h : EndsIn s directory last) : ofText s = directory.join ⟨.relative, [last]⟩ := by
  simpa using h.read "" (by simp)

theorem parts_ne_nil (h : EndsIn s directory last) : (Path.ofText s).parts ≠ [] := by
  rw [h.ofText, join_relative]
  exact List.append_ne_nil_of_right_ne_nil _ (List.cons_ne_nil _ _)

theorem parent (h : EndsIn s directory last) : (Path.ofText s).parent = directory := by
  rw [h.ofText, join_relative, Path.parent]
  simp

theorem suffix (h : EndsIn s directory last) : (Path.ofText s).suffix = (splitName last).2 := by
  rw [h.ofText, join_relative]
  simp [Path.suffix, Path.name]

theorem append (h : EndsIn s directory last) {more : String} (whole : '/' ∉ more.toList) :
    EndsIn (s ++ more) directory (last ++ more) := by
  refine ⟨h.inner, h.named.append whole, fun further apart => ?_⟩
  rw [String.append_assoc, String.append_assoc]
  exact h.read _ (by simpa using ⟨whole, apart⟩)

end EndsIn

variable {parts : List String} {last : String}

theorem render_concat_append (root : PathRoot) (parts : List String) (last more : String) :
    render ⟨root, parts ++ [last]⟩ ++ more = render ⟨root, parts ++ [last ++ more]⟩ := by
  simp [render, String.append_assoc, joined_concat_append]

theorem endsIn_render (root : PathRoot) (inner : ∀ n ∈ parts, IsName n) (named : IsName last) :
    EndsIn (render ⟨root, parts ++ [last]⟩) ⟨root, parts⟩ last := by
  refine ⟨inner, named, fun more whole => ?_⟩
  rw [render_concat_append, ofText_render (isName_of_mem_concat inner (named.append whole)),
    join_relative]

theorem render_append (root : PathRoot) {names more : List String} (some_left : names ≠ [])
    (others : more ≠ []) :
    render ⟨root, names ++ more⟩ = render ⟨root, names⟩ ++ ("/" ++ "/".intercalate more) := by
  simp [render, some_left, String.intercalate_append_of_ne_nil some_left others,
    String.append_assoc]

theorem render_joined {names : List String} (some_left : names ≠ []) :
    render ⟨.relative, names⟩ = "/".intercalate names := by
  simp [render, PathRoot.text, some_left]

theorem endsIn_joined (inner : ∀ n ∈ parts, IsName n) (named : IsName last) :
    EndsIn ("/".intercalate (parts ++ [last])) ⟨.relative, parts⟩ last := by
  have ends := endsIn_render .relative inner named
  rwa [render_joined (List.append_ne_nil_of_right_ne_nil _ (List.cons_ne_nil _ _))] at ends

theorem endsIn_rooted (inner : ∀ n ∈ parts, IsName n) (named : IsName last) :
    EndsIn ("///" ++ "/".intercalate (parts ++ [last])) ⟨.absolute, parts⟩ last := by
  refine ⟨inner, named, fun more whole => ?_⟩
  rw [String.append_assoc, joined_concat_append,
    ofText_rooted (isName_of_mem_concat inner (named.append whole)), join_relative]

/-! ## Paths above paths -/

/-- Further names lead from a path to another one. -/
def Reaches (p q : Path) : Prop := p.root = q.root ∧ p.parts <+: q.parts

/-- A path is a directory on the way to another one. -/
def IsAbove (p q : Path) : Prop := p.root = q.root ∧ p.parts <+: q.parts ∧ p.parts ≠ q.parts

instance (p q : Path) : Decidable (p.IsAbove q) := inferInstanceAs (Decidable (_ ∧ _ ∧ _))

/-- What is above a path is told by the directory of the path. -/
theorem isAbove_iff {p q : Path} (named : p.parts ≠ []) : p.IsAbove q ↔ p.Reaches q.parent := by
  rw [IsAbove, Reaches, parent]
  refine and_congr_right fun _ => ?_
  by_cases none_left : q.parts = []
  · simp [none_left, named]
  · obtain ⟨parts, last, split⟩ : ∃ parts last, q.parts = parts ++ [last] :=
      ⟨_, _, (List.dropLast_concat_getLast none_left).symm⟩
    rw [split, List.dropLast_concat, List.prefix_concat_iff]
    constructor
    · rintro ⟨whole | under, other⟩
      · exact absurd whole other
      · exact under
    · intro under
      refine ⟨.inr under, fun whole => ?_⟩
      have shorter : parts.length + 1 ≤ parts.length := by simpa [whole] using under.length_le
      omega

end SelectorCatalog.Path
