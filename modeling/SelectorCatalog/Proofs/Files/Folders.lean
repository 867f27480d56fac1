import SelectorCatalog.Proofs.Files.Making
import SelectorCatalog.Proofs.Files.Written

/-!
# Folders of files

A folder is tidy if nothing is in it but files of some names and directories above them
(`Tree.IsTidy`). Placing one of the files keeps it tidy (`Tree.keepsTidy_place`), and if none of the
files is above another, this fails only for a path that cannot be used
(`Tree.IsTidy.failsFrom_place`). The other way round, no file is above a directory that is there
(`Tree.not_isAbove_of_directory`).
-/

set_option autoImplicit false

namespace SelectorCatalog

/-! ## Inner paths in a folder -/

namespace Path

variable {s s' : String} {p q folder : Path}

theorem isInner_joined {names : List String} (some_left : names ≠ [])
    (named : ∀ n ∈ names, IsName n) :
    IsInner ("/".intercalate names) :=
  isInner_iff.2 ⟨names, some_left, named, rfl⟩

theorem IsInner.root_parent (h : IsInner s) (folder : Path) :
    (folder.join (ofText s)).parent.root = folder.root := by
  obtain ⟨names, -, named, rfl⟩ := isInner_iff.1 h
  rw [ofText_joined named, join_relative, parent]

/-- Different inner paths lead to different places. -/
theorem IsInner.eq_of_location (h : IsInner s) (h' : IsInner s')
    (same : (folder.join (ofText s)).location = (folder.join (ofText s')).location) : s = s' := by
  rw [h.location_join, h'.location_join] at same
  obtain ⟨names, -, named, rfl⟩ := isInner_iff.1 h
  obtain ⟨others, -, others_named, rfl⟩ := isInner_iff.1 h'
  rw [ofText_joined named, ofText_joined others_named] at same
  exact congrArg _ (List.append_cancel_left same)

theorem parts_join_ne_nil (h : p.parts ≠ []) (folder : Path) : (folder.join p).parts ≠ [] := by
  unfold Path.join
  split
  · exact List.append_ne_nil_of_right_ne_nil _ h
  · exact h

theorem IsAbove.join (h : p.IsAbove q) (folder : Path) :
    (folder.join p).IsAbove (folder.join q) := by
  obtain ⟨root, under, other⟩ := h
  unfold Path.join
  rw [root]
  split
  · exact ⟨rfl, (List.prefix_append_right_inj _).2 under,
      fun same => other (List.append_cancel_left same)⟩
  · exact ⟨root, under, other⟩

/-- A directory on the way to an inner path is above the folder or the folder, or it is an inner
path as well. -/
theorem IsInner.directory_cases (h : IsInner s) {above : List String}
    (under : above <+: (folder.join (ofText s)).parent.parts) :
    above <+: folder.parts ∨
      ∃ p, IsInner p ∧ (ofText p).IsAbove (ofText s) ∧ folder.join (ofText p) = ⟨folder.root,
        above⟩ := by
  obtain ⟨names, some_left, named, rfl⟩ := isInner_iff.1 h
  rw [ofText_joined named] at under ⊢
  rw [join_relative, parent, List.dropLast_append_of_ne_nil some_left] at under
  rcases List.prefix_or_prefix_of_prefix under (List.prefix_append _ _) with upper | ⟨more, rfl⟩
  · exact .inl upper
  · have within := (List.prefix_append_right_inj _).1 under
    by_cases none_left : more = []
    · exact .inl (by simp [none_left])
    · have more_named : ∀ n ∈ more, IsName n := fun n hn =>
        named n ((within.trans (List.dropLast_prefix _)).subset hn)
      refine .inr ⟨_, isInner_joined none_left more_named, ?_, ?_⟩
      · rw [ofText_joined more_named, isAbove_iff none_left]
        exact ⟨rfl, within⟩
      · rw [ofText_joined more_named, join_relative]

end Path

namespace Tree

open SelectorCatalog.Path (IsInner)

variable {t u : Tree} {folder p q : Path} {files : List String}

/-- No file is above a directory that is there. -/
theorem not_isAbove_of_directory (there : t.isDirectory q.parent = true) (named : p.parts ≠ [])
    {content : List UInt8} (file : t.at? p.location = some (.file content)) : ¬p.IsAbove q := by
  intro h
  obtain ⟨root, under⟩ := (Path.isAbove_iff named).1 h
  have directory := directory_above there under
  rw [← root] at directory
  cases directory.symm.trans file

/-! ## Tidy folders -/

/-- Nothing is in a folder but files of these names and directories above them. -/
structure IsTidy (folder : Path) (files : List String) (t : Tree) : Prop where
  reached : t.isDirectory folder = true
  listed : ∀ p, IsInner p → ∀ content,
    t.at? (folder.join (.ofText p)).location = some (.file content) → p ∈ files
  needed : ∀ p, IsInner p → t.at? (folder.join (.ofText p)).location = some .directory →
    ∃ file ∈ files, (Path.ofText p).IsAbove (.ofText file)

/-- An empty folder is tidy, whatever files it is for. -/
theorem isTidy_of_empty (reached : t.isDirectory folder = true)
    (empty : ∀ p, IsInner p → t.at? (folder.join (.ofText p)).location = none)
    (files : List String) :
    t.IsTidy folder files where
  reached := reached
  listed p inner _ file := Option.some_ne_none _ (file.symm.trans (empty p inner)) |>.elim
  needed p inner there := Option.some_ne_none _ (there.symm.trans (empty p inner)) |>.elim

/-- What is tidy stays tidy. -/
def KeepsTidy (folder : Path) (files : List String) (t u : Tree) : Prop :=
  t.IsTidy folder files → u.IsTidy folder files

theorem isPreorder_keepsTidy (folder : Path) (files : List String) :
    IsPreorder (KeepsTidy folder files) :=
  isPreorder_keeps _

variable {file : String}

theorem IsTidy.put_directory (tidy : t.IsTidy folder files) {p : String} (inner : IsInner p)
    (above : ∃ file ∈ files, (Path.ofText p).IsAbove (.ofText file))
    (free : t.at? (folder.join (.ofText p)).location = none) :
    (t.put (folder.join (.ofText p)).location .directory).IsTidy folder files where
  reached := (keepsDirectories_put_directory free).isDirectory tidy.reached
  listed q inner' content there := by
    by_cases same : (folder.join (.ofText q)).location = (folder.join (.ofText p)).location
    · rw [same, at?_put_self (isStart_eq_false_of_none free)] at there
      cases there
    · rw [at?_put_of_ne same] at there
      exact tidy.listed q inner' content there
  needed q inner' there := by
    by_cases same : (folder.join (.ofText q)).location = (folder.join (.ofText p)).location
    · rwa [inner'.eq_of_location inner same]
    · rw [at?_put_of_ne same] at there
      exact tidy.needed q inner' there

theorem IsTidy.put_file (tidy : t.IsTidy folder files) (mem : file ∈ files) (inner : IsInner file)
    (other : t.at? (folder.join (.ofText file)).location ≠ some .directory) (content : List UInt8) :
    (t.put (folder.join (.ofText file)).location (.file content)).IsTidy folder files where
  reached := (keepsDirectories_put_file other content).isDirectory tidy.reached
  listed q inner' old there := by
    by_cases same : (folder.join (.ofText q)).location = (folder.join (.ofText file)).location
    · rwa [inner'.eq_of_location inner same]
    · rw [at?_put_of_ne same] at there
      exact tidy.listed q inner' old there
  needed q inner' there := by
    by_cases same : (folder.join (.ofText q)).location = (folder.join (.ofText file)).location
    · rw [same, at?_put_self (isStart_eq_false_of_ne other)] at there
      cases there
    · rw [at?_put_of_ne same] at there
      exact tidy.needed q inner' there

/-! ## Placing files in a tidy folder -/

theorem keepsTidy_write (mem : file ∈ files) (inner : IsInner file) (content : List UInt8) :
    TreeStep.Relates (KeepsTidy folder files) (write (folder.join (.ofText file)) content) :=
  relates_write (isPreorder_keepsTidy folder files) fun other tidy =>
    tidy.put_file mem inner other content

/-- Directories are made above the folder, or they are above the file. -/
theorem keepsTidy_makeDirectories (mem : file ∈ files) (inner : IsInner file) :
    TreeStep.Relates (KeepsTidy folder files)
      (makeDirectories (folder.join (.ofText file)).parent) := by
  refine relates_makeDirectories (isPreorder_keepsTidy folder files)
    fun {above} under {t} free tidy => ?_
  rw [inner.root_parent] at free ⊢
  rcases inner.directory_cases under with upper | ⟨p, inner_p, higher, joined⟩
  · cases (directory_above tidy.reached upper).symm.trans free
  · rw [← joined] at free ⊢
    exact tidy.put_directory inner_p ⟨file, mem, higher⟩ free

/-- **Placing one of the files keeps a folder tidy.** -/
theorem keepsTidy_place (mem : file ∈ files) (inner : IsInner file) (content : List UInt8) :
    TreeStep.Relates (KeepsTidy folder files) (place (folder.join (.ofText file)) content) :=
  (keepsTidy_makeDirectories mem inner).bind (isPreorder_keepsTidy folder files) fun _ =>
    keepsTidy_write mem inner content

namespace IsTidy

variable (tidy : t.IsTidy folder files) (mem : file ∈ files) (inner : IsInner file)
  (apart : ∀ p ∈ files, ∀ q ∈ files, ¬(Path.ofText p).IsAbove (.ofText q))

include tidy mem inner apart

theorem failsFrom_write (there : t.isDirectory (folder.join (.ofText file)).parent = true)
    (content : List UInt8) :
    (write (folder.join (.ofText file)) content).FailsFrom t
      (·.Refuses (folder.join (.ofText file))) := by
  have free : t.at? (folder.join (.ofText file)).location ≠ some .directory := fun directory =>
    let ⟨other, listed, higher⟩ := tidy.needed file inner directory
    apart file mem other listed higher
  obtain ⟨parts, last, named, name, rfl⟩ := Path.isInner_iff_concat.1 inner
  have split : folder.join (.ofText ("/".intercalate (parts ++ [last]))) =
      (folder.join (.ofText ("/".intercalate (parts ++ [last])))).parent.join ⟨.relative,
        [last]⟩ := by
    rw [Path.ofText_joined (Path.isName_of_mem_concat named name), Path.join_relative, Path.parent]
    simp [← List.append_assoc]
  rw [split] at free ⊢
  exact Tree.failsFrom_write there free content

theorem failsFrom_makeDirectories :
    (makeDirectories (folder.join (.ofText file)).parent).FailsFrom t
      (·.Refuses (folder.join (.ofText file)).parent) := by
  refine Tree.failsFrom_makeDirectories fun above under old there => ?_
  rw [inner.root_parent] at there
  rcases inner.directory_cases under with upper | ⟨p, inner_p, higher, joined⟩
  · cases (directory_above tidy.reached upper).symm.trans there
  · rw [← joined] at there
    exact apart p (tidy.listed p inner_p old there) file mem higher

/-- **A file is placed in a tidy folder unless its path is refused**, if none of the files is above
another. -/
theorem failsFrom_place (content : List UInt8) :
    (place (folder.join (.ofText file)) content).FailsFrom t
      (·.Refuses (folder.join (.ofText file))) := by
  have directories := (failsFrom_makeDirectories tidy mem inner apart).imp fun _ h =>
    h.below (List.dropLast_prefix _)
  refine .bind directories fun _ u made => ?_
  exact failsFrom_write ((keepsTidy_makeDirectories mem inner).after made tidy) mem inner apart
    (isDirectory_makeDirectories made) content

end IsTidy

end Tree

end SelectorCatalog
