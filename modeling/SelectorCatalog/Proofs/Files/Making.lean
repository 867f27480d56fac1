import SelectorCatalog.Proofs.Files.Confined
import SelectorCatalog.Proofs.Files.Written
import SelectorCatalog.Proofs.Steps

/-!
# Making directories and writing files

Where nothing but directories stands in the way, making a directory fails only for a path with names
that cannot be used (`Tree.failsFrom_makeDirectories`), and so does writing a file whose directory
is there (`Tree.failsFrom_write`). A directory that was made is there
(`Tree.isDirectory_makeDirectories`), and stays there whatever else is written.
-/

set_option autoImplicit false

namespace SelectorCatalog

/-! ## Paths that are refused -/

/-- No name of the path holds the character that ends names, and neither a name nor the whole path
is too long. -/
structure Path.IsUsable (p : Path) : Prop where
  plain : ∀ name ∈ p.parts, Char.ofNat 0 ∉ name.toList
  short : ∀ name ∈ p.parts, Tree.byteCount name ≤ Tree.longestName
  whole : Tree.byteCount p.render ≤ Tree.longestPath

theorem Path.isUsable_iff (p : Path) :
    p.IsUsable ↔ (∀ name ∈ p.parts, Char.ofNat 0 ∉ name.toList) ∧
      (∀ name ∈ p.parts, Tree.byteCount name ≤ Tree.longestName) ∧
        Tree.byteCount p.render ≤ Tree.longestPath :=
  ⟨fun ⟨plain, short, whole⟩ => ⟨plain, short, whole⟩,
    fun ⟨plain, short, whole⟩ => ⟨plain, short, whole⟩⟩

instance (p : Path) : Decidable p.IsUsable := decidable_of_iff _ p.isUsable_iff.symm

/-- The fault is that a path cannot be used. -/
structure Fault.Refuses (f : Fault) (p : Path) : Prop where
  label : f = .fileSystem ∨ f = .badValue "embedded null byte"
  unusable : ¬p.IsUsable

theorem Tree.byteCount_append (s t : String) :
    Tree.byteCount (s ++ t) = Tree.byteCount s + Tree.byteCount t := by
  simp [Tree.byteCount]

/-- What is above a usable path is usable. -/
theorem Path.IsUsable.above {root : PathRoot} {parts upper : List String}
    (h : (Path.mk root parts).IsUsable) (under : upper <+: parts) :
    (Path.mk root upper).IsUsable := by
  refine ⟨fun n hn => h.plain n (under.subset hn), fun n hn => h.short n (under.subset hn), ?_⟩
  by_cases none_left : upper = []
  · subst none_left
    cases root <;> decide
  · obtain ⟨more, rfl⟩ := under
    by_cases whole : more = []
    · simpa [whole] using h.whole
    · have longer := h.whole
      rw [Path.render_append root none_left whole, Tree.byteCount_append] at longer
      exact Nat.le_trans (Nat.le_add_right _ _) longer

theorem Fault.Refuses.below {f : Fault} {root : PathRoot} {parts upper : List String}
    (h : f.Refuses ⟨root, upper⟩) (under : upper <+: parts) : f.Refuses ⟨root, parts⟩ :=
  ⟨h.label, fun usable => h.unusable (usable.above under)⟩

/-! ## Failures of a step -/

namespace TreeStep

variable {α β : Type} {P Q : Fault → Prop} {t : Tree}

/-- From a tree, the step fails with no other faults. -/
def FailsFrom (x : TreeStep α) (t : Tree) (P : Fault → Prop) :
    Prop := ∀ f u, x t = (.error f, u) → P f

theorem FailsFrom.imp {x : TreeStep α} (h : x.FailsFrom t P) (weaker : ∀ f, P f → Q f) :
    x.FailsFrom t Q :=
  fun f u failed => weaker f (h f u failed)

theorem FailsFrom.bind {x : TreeStep α} {f : α → TreeStep β} (first : x.FailsFrom t P)
    (rest : ∀ a u, x t = (.ok a, u) → (f a).FailsFrom u P) : (x >>= f).FailsFrom t P := by
  intro e v h
  rw [bind_eq] at h
  split at h
  · rename_i a u done
    exact rest a u done e v h
  · rename_i failed
    cases h
    exact first _ _ failed

theorem FailsFrom.tryCatch {x : TreeStep α} {handle : Fault → TreeStep α}
    (handled : ∀ f u, x t = (.error f, u) → (handle f).FailsFrom u P) :
    (tryCatch x handle).FailsFrom t P := by
  intro e v h
  rw [tryCatch_eq] at h
  split at h
  · cases h
  · rename_i d u failed
    exact handled d u failed e v h

end TreeStep

namespace Tree

variable {t u : Tree} {p : Path} {l : Location}

/-! ## Following names -/

theorem follow_append (t : Tree) (l : Location) (names more : List String) :
    t.follow l (names ++ more) = t.follow l names >>= fun m => t.follow m more := by
  induction names generalizing l with
  | nil => rfl
  | cons name rest ih =>
    rw [List.cons_append, follow, follow]
    split
    · rfl
    · rfl
    · split
      · exact ih _
      · split
        · rfl
        · exact ih _

theorem directory_of_follow_cons {m : Location} {name : String} {rest : List String}
    (h : t.follow l (name :: rest) = .ok m) : t.at? l = some .directory := by
  rw [follow] at h
  split at h
  · cases h
  · cases h
  · assumption

/-- Names can be followed only through directories. -/
theorem directory_of_follow {m : Location} {before after : List String} {name : String}
    (h : t.follow l (before ++ name :: after) = .ok m) :
    t.at? (before.foldl Path.nextLocation l) = some .directory := by
  rw [follow_append, bind_eq_ok] at h
  obtain ⟨n, start, rest⟩ := h
  obtain rfl := t.follow_ok start
  exact directory_of_follow_cons rest

/-- Following names fails where something is missing or a file is in the way, or for a name that is
too long. -/
theorem follow_error {names : List String} {f : Fault} (h : t.follow l names = .error f) :
    (f = .fileSystem ∧ ∃ n ∈ names, longestName < byteCount n) ∨ f = .fileNotFound ∨
      ∃ above, above <+: names ∧ above ≠ names ∧
        ∃ content, t.at? (above.foldl Path.nextLocation l) = some (.file content) := by
  induction names generalizing l with
  | nil => cases h
  | cons name rest ih =>
    have next (h : t.follow (Path.nextLocation l name) rest = .error f) :
        (f = .fileSystem ∧ ∃ n ∈ name :: rest, longestName < byteCount n) ∨ f = .fileNotFound ∨
          ∃ above, above <+: name :: rest ∧ above ≠ name :: rest ∧
            ∃ content, t.at? (above.foldl Path.nextLocation l) = some (.file content) := by
      rcases ih h with ⟨refused, n, mem, long⟩ | missing | ⟨above, under, other, file⟩
      · exact .inl ⟨refused, n, List.mem_cons_of_mem _ mem, long⟩
      · exact .inr (.inl missing)
      · exact .inr (.inr ⟨name :: above, by simpa using under, by simpa using other, file⟩)
    rw [follow] at h
    split at h
    · cases h
      exact .inr (.inl rfl)
    · rename_i content file
      exact .inr (.inr ⟨[], List.nil_prefix, (List.cons_ne_nil _ _).symm, content, file⟩)
    · split at h
      · rename_i upwards
        exact next (by rwa [Path.nextLocation, if_pos upwards])
      · rename_i other
        split at h
        · rename_i long
          cases h
          exact .inl ⟨rfl, name, List.mem_cons_self, long⟩
        · exact next (by rwa [Path.nextLocation, if_neg other])

/-! ## Looking up paths -/

/-- A path is refused in every tree, or its names are followed. -/
theorem locate_cases (p : Path) :
    (∃ f : Fault, f.Refuses p ∧ ∀ t : Tree, t.locate p = .error f) ∨
      ∀ t : Tree, t.locate p = t.follow (Path.mk p.root []).location p.parts := by
  by_cases nul : (p.parts.any fun s => s.toList.contains (Char.ofNat 0)) = true
  · refine .inl ⟨_, ⟨.inr rfl, fun usable => ?_⟩, fun t => by rw [locate, if_pos nul]⟩
    obtain ⟨n, mem, holds⟩ := List.any_eq_true.1 nul
    exact usable.plain n mem (by simpa using holds)
  · by_cases long : byteCount p.render > longestPath
    · refine .inl ⟨_, ⟨.inl rfl, fun usable => ?_⟩, fun t => by rw [locate, if_neg nul,
        if_pos long]⟩
      exact Nat.not_lt.2 usable.whole long
    · refine .inr fun t => ?_
      rw [locate, if_neg nul, if_neg long]
      rfl

theorem isDirectory_iff :
    t.isDirectory p = true ↔ t.locate p = .ok p.location ∧ t.at? p.location = some .directory := by
  have spelled : t.isDirectory p = true ↔ t.find p = .ok .directory := by
    unfold isDirectory
    split
    · simpa
    · rename_i other
      simpa using other
  rw [spelled, find, bind_eq_ok]
  constructor
  · rintro ⟨l, found, there⟩
    obtain rfl := locate_ok found
    split at there
    · rename_i e here
      cases there
      exact ⟨found, here⟩
    · cases there
  · rintro ⟨found, here⟩
    refine ⟨p.location, found, ?_⟩
    rw [here]
    rfl

/-- What is above a directory are directories. -/
theorem directory_above (h : t.isDirectory p = true) {above : List String}
    (under : above <+: p.parts) :
    t.at? (Path.mk p.root above).location = some .directory := by
  obtain ⟨found, here⟩ := isDirectory_iff.1 h
  rcases locate_cases p with ⟨f, -, refused⟩ | followed
  · rw [refused] at found
    cases found
  · rw [followed] at found
    obtain ⟨more, split⟩ := under
    cases more with
    | nil =>
      rw [List.append_nil] at split
      rwa [split]
    | cons name rest =>
      rw [← split] at found
      exact directory_of_follow found

/-- Where no file is in the way, a path is refused or not found. -/
theorem locate_error {f : Fault} (h : t.locate p = .error f)
    (clear : ∀ above, above <+: p.parts → above ≠ p.parts →
      ∀ content, t.at? (Path.mk p.root above).location ≠ some (.file content)) :
    f.Refuses p ∨ f = .fileNotFound := by
  rcases locate_cases p with ⟨d, unusable, refused⟩ | followed
  · rw [refused] at h
    cases h
    exact .inl unusable
  · rw [followed] at h
    rcases follow_error h with ⟨refused, n, mem, long⟩ | missing | ⟨above, under,
      other, content, file⟩
    · exact .inl ⟨.inl refused, fun usable => Nat.not_lt.2 (usable.short n mem) long⟩
    · exact .inr missing
    · exact absurd file (clear above under other content)

/-- A name in a directory that is there is looked up, unless it is refused. -/
theorem locate_in_directory {directory : Path} (there : t.isDirectory directory = true)
    {name : String} {f : Fault} (h : t.locate (directory.join ⟨.relative, [name]⟩) = .error f) :
    f.Refuses (directory.join ⟨.relative, [name]⟩) := by
  obtain ⟨found, here⟩ := isDirectory_iff.1 there
  rcases locate_cases directory with ⟨d, -, refused⟩ | followed
  · rw [refused] at found
    cases found
  · rw [followed] at found
    rcases locate_cases (directory.join ⟨.relative, [name]⟩) with ⟨d, unusable, refused⟩ | joined
    · rw [refused] at h
      cases h
      exact unusable
    · rw [joined, Path.join_relative, follow_append, found, ok_bind, follow, here] at h
      dsimp only at h
      split at h
      · cases h
      · split at h
        · rename_i long
          cases h
          refine ⟨.inl rfl, fun usable => Nat.not_lt.2 (usable.short name ?_) long⟩
          rw [Path.join_relative]
          exact List.mem_append_right _ (List.mem_singleton_self _)
        · cases h

/-! ## Directories stay -/

/-- What is a directory stays one. -/
def KeepsDirectories (t u : Tree) :
    Prop := ∀ l, t.at? l = some .directory → u.at? l = some .directory

theorem isPreorder_keepsDirectories : IsPreorder KeepsDirectories where
  refl _ _ := id
  trans h g l := g l ∘ h l

theorem keepsDirectories_put_directory (free : t.at? l = none) :
    t.KeepsDirectories (t.put l .directory) := by
  intro m there
  rwa [at?_put_of_ne (ne_of_none there free)]

theorem keepsDirectories_put_file (other : t.at? l ≠ some .directory) (content : List UInt8) :
    t.KeepsDirectories (t.put l (.file content)) := by
  intro m there
  have apart : m ≠ l := by
    rintro rfl
    exact other there
  rwa [at?_put_of_ne apart]

theorem KeepsDirectories.follow (h : t.KeepsDirectories u) {names : List String} {m : Location}
    (found : t.follow l names = .ok m) : u.follow l names = .ok m := by
  induction names generalizing l with
  | nil => exact found
  | cons name rest ih =>
    have here := directory_of_follow_cons found
    rw [Tree.follow, here] at found
    rw [Tree.follow, h l here]
    dsimp only at found ⊢
    split at found
    · rename_i upwards
      rw [if_pos upwards]
      exact ih found
    · rename_i other
      rw [if_neg other]
      split at found
      · cases found
      · rename_i short
        rw [if_neg short]
        exact ih found

theorem KeepsDirectories.locate (h : t.KeepsDirectories u) (found : t.locate p = .ok l) :
    u.locate p = .ok l := by
  rcases locate_cases p with ⟨f, -, refused⟩ | followed
  · rw [refused] at found
    cases found
  · rw [followed] at found ⊢
    exact h.follow found

/-- **A directory that is found stays found.** -/
theorem KeepsDirectories.isDirectory (h : t.KeepsDirectories u) (there : t.isDirectory p = true) :
    u.isDirectory p = true := by
  obtain ⟨found, here⟩ := isDirectory_iff.1 there
  exact isDirectory_iff.2 ⟨h.locate found, h _ here⟩

/-! ## Making directories -/

/-- A new directory is there. -/
theorem isDirectory_makeNew (h : makeNew p t = (.ok (), u)) : u.isDirectory p = true := by
  rw [makeNew_eq] at h
  split at h
  · cases h
  · rename_i l found
    obtain rfl := locate_ok found
    split at h
    · cases h
    · rename_i free
      cases h
      refine isDirectory_iff.2 ⟨(keepsDirectories_put_directory free).locate found, ?_⟩
      exact at?_put_self (isStart_eq_false_of_none free) t _

/-- A directory is not made where the path is refused or something is there. -/
theorem makeNew_error {f : Fault} (h : makeNew p t = (.error f, u)) :
    u = t ∧ (t.locate p = .error f ∨ f = .fileExists ∧ t.locate p = .ok p.location ∧
      t.at? p.location ≠ none) := by
  rw [makeNew_eq] at h
  split at h
  · rename_i d refused
    cases h
    exact ⟨rfl, .inl refused⟩
  · rename_i l found
    obtain rfl := locate_ok found
    split at h
    · rename_i e here
      cases h
      exact ⟨rfl, .inr ⟨rfl, found, by simp [here]⟩⟩
    · cases h

theorem acceptPresent_eq (p : Path) (f : Fault) (t : Tree) :
    acceptPresent p f t = if f.isFileFault && t.isDirectory p then (.ok (), t)
      else (.error f, t) := by
  simp only [acceptPresent]
  cases f.isFileFault with
  | false => rfl
  | true =>
    simp only [TreeStep.bind_eq, TreeStep.get_eq, Bool.true_and]
    split <;> rfl

theorem isDirectory_acceptPresent {f : Fault} (h : acceptPresent p f t = (.ok (), u)) :
    u.isDirectory p = true := by
  rw [acceptPresent_eq] at h
  split at h
  · rename_i present
    cases h
    exact (Bool.and_eq_true_iff.1 present).2
  · cases h

theorem isDirectory_makePresent (h : tryCatch (makeNew p) (acceptPresent p) t = (.ok (), u)) :
    u.isDirectory p = true := by
  rw [TreeStep.tryCatch_eq] at h
  split at h
  · rename_i done
    cases h
    exact isDirectory_makeNew done
  · exact isDirectory_acceptPresent h

theorem isDirectory_makeUpwards {root : PathRoot} {names : List String}
    (h : makeUpwards root names t = (.ok (), u)) : u.isDirectory ⟨root, names.reverse⟩ = true := by
  cases names with
  | nil => exact isDirectory_makePresent h
  | cons name up =>
    rw [makeUpwards, TreeStep.tryCatch_eq] at h
    split at h
    · rename_i done
      cases h
      exact isDirectory_makeNew done
    · split at h
      · obtain ⟨_, v, -, again⟩ := TreeStep.bind_ok h
        exact isDirectory_makePresent again
      · exact isDirectory_acceptPresent h

/-- **A directory that was made is there.** -/
theorem isDirectory_makeDirectories (h : makeDirectories p t = (.ok (), u)) :
    u.isDirectory p = true := by
  simpa using isDirectory_makeUpwards h

/-- A failure to make a directory is accepted unless the path is refused, where no file is. -/
theorem failsFrom_acceptPresent {f : Fault} (failed : makeNew p t = (.error f, u))
    (clear : ∀ content, t.at? p.location ≠ some (.file content))
    (refused : t.locate p = .error f → f.Refuses p) :
    (acceptPresent p f).FailsFrom u (·.Refuses p) := by
  obtain ⟨rfl, why⟩ := makeNew_error failed
  intro e v h
  rw [acceptPresent_eq] at h
  rcases why with refusal | ⟨rfl, found, present⟩
  · split at h
    · cases h
    · cases h
      exact refused refusal
  · have directory : u.isDirectory p = true := by
      refine isDirectory_iff.2 ⟨found, ?_⟩
      cases here : u.at? p.location with
      | none => exact absurd here present
      | some e =>
        cases e with
        | directory => rfl
        | file content => exact absurd here (clear content)
    rw [directory] at h
    cases h

/-- In a directory that is there, one more is made unless its path is refused, where no file is. -/
theorem failsFrom_makeIn {directory : Path} (there : t.isDirectory directory = true) {name : String}
    (clear : ∀ content, t.at? (directory.join ⟨.relative, [name]⟩).location ≠
    some (.file content)) :
    (tryCatch (makeNew (directory.join ⟨.relative, [name]⟩))
      (acceptPresent (directory.join ⟨.relative, [name]⟩))).FailsFrom t
      (·.Refuses (directory.join ⟨.relative, [name]⟩)) :=
  .tryCatch fun _ _ failed => failsFrom_acceptPresent failed clear (locate_in_directory there)

/-- The induction goes up from a path; once the directory above is there, only the last name can be
refused. -/
theorem failsFrom_makeUpwards {root : PathRoot} {names : List String}
    (clear : ∀ above, above <+: names.reverse →
      ∀ content, t.at? (Path.mk root above).location ≠ some (.file content)) :
    (makeUpwards root names).FailsFrom t (·.Refuses ⟨root, names.reverse⟩) := by
  induction names generalizing t with
  | nil =>
    refine .tryCatch fun f v failed =>
      failsFrom_acceptPresent failed (clear [] (List.prefix_refl _)) fun h => ?_
    rcases locate_cases ⟨root, []⟩ with ⟨d, unusable, refused⟩ | followed
    · rw [refused] at h
      cases h
      exact unusable
    · rw [followed] at h
      cases h
  | cons name up ih =>
    have whole := clear _ (List.prefix_refl _)
    refine .tryCatch fun f v failed => ?_
    split
    · obtain ⟨rfl, -⟩ := makeNew_error failed
      have upper : up.reverse <+: (name :: up).reverse := by simp
      have made_above := (ih fun above under => clear above (under.trans upper)).imp fun _ h =>
        h.below upper
      refine .bind made_above fun _ w made => ?_
      have unchanged : v.WritesOnly (fun _ => False) w :=
        (relates_makeUpwards (isPreorder_writesOnly _) fun _ =>
          writesOnly_put_directory _).after made
      have still : ∀ content, w.at? (Path.mk root (name :: up).reverse).location ≠
          some (.file content) :=
        fun content file => (unchanged.files _ content file).elim id (whole content)
      have last : Path.mk root (name :: up).reverse = (Path.mk root up.reverse).join ⟨.relative,
          [name]⟩ := by
        simp
      rw [last] at still ⊢
      exact failsFrom_makeIn (isDirectory_makeUpwards made) still
    · rename_i other
      refine failsFrom_acceptPresent failed whole fun h =>
        (locate_error h fun above under _ => ?_).resolve_right other
      exact clear above under

/-- **Directories are made unless the path is refused**, where no file is in the way. -/
theorem failsFrom_makeDirectories
    (clear : ∀ above, above <+: p.parts → ∀ content, t.at? (Path.mk p.root above).location ≠
    some (.file content)) :
    (makeDirectories p).FailsFrom t (·.Refuses p) := by
  have upwards : (makeUpwards p.root p.parts.reverse).FailsFrom t
      (·.Refuses ⟨p.root, p.parts.reverse.reverse⟩) := failsFrom_makeUpwards (by simpa using clear)
  rwa [List.reverse_reverse] at upwards

/-! ## Writing files -/

/-- **A file is written unless its path is refused**, where its directory is there and it is none
itself. -/
theorem failsFrom_write {directory : Path} (there : t.isDirectory directory = true) {name : String}
    (free : t.at? (directory.join ⟨.relative, [name]⟩).location ≠ some .directory)
    (content : List UInt8) :
    (write (directory.join ⟨.relative, [name]⟩) content).FailsFrom t
      (·.Refuses (directory.join ⟨.relative, [name]⟩)) := by
  intro f v h
  rw [write_eq] at h
  split at h
  · rename_i d refused
    cases h
    exact locate_in_directory there refused
  · rename_i l found
    obtain rfl := locate_ok found
    split at h
    · rename_i here
      exact absurd here free
    · cases h

theorem keepsDirectories_write (p : Path) (content : List UInt8) :
    TreeStep.Relates KeepsDirectories (write p content) :=
  relates_write isPreorder_keepsDirectories fun other => keepsDirectories_put_file other content

theorem keepsDirectories_place (p : Path) (content : List UInt8) :
    TreeStep.Relates KeepsDirectories (place p content) :=
  relates_place isPreorder_keepsDirectories (fun other => keepsDirectories_put_file other content)
    keepsDirectories_put_directory

/-- The directory of a file that was placed is there. -/
theorem isDirectory_place {content : List UInt8} (h : place p content t = (.ok (), u)) :
    u.isDirectory p.parent = true := by
  obtain ⟨_, v, made, written⟩ := TreeStep.bind_ok h
  exact ((keepsDirectories_write p content).after written).isDirectory
    (isDirectory_makeDirectories made)

end Tree

end SelectorCatalog
