import SelectorCatalog.Files.Tree
import SelectorCatalog.Proofs.Files.Inner

/-!
# Steps that write only inside

`TreeStep.Relates` says how the tree before a step and the tree after it are related, also if the
step fails. Two relations are of use: outside some locations no file is written and nothing goes
away (`Tree.WritesOnly`), and a file stays a file (`Tree.KeepsFile`). Where a path leads is told by
its names alone (`Tree.locate_ok`), so that inner paths lead below the folder that they are looked
up in (`Path.location_join`).
-/

set_option autoImplicit false

namespace SelectorCatalog

/-! ## Locations -/

namespace Path

/-- The location one name on. -/
def nextLocation (l : Location) (name : String) : Location :=
  if name == ".." then Tree.above l else l ++ [name]

/-- The location that a path leads to, if it leads anywhere. -/
def location (p : Path) : Location :=
  p.parts.foldl nextLocation (if p.root = .relative then [] else ["/"])

theorem foldl_nextLocation {names : List String} (h : ∀ n ∈ names, n ≠ "..") (l : Location) :
    names.foldl nextLocation l = l ++ names := by
  induction names generalizing l with
  | nil => simp
  | cons name rest ih =>
    have ⟨first, others⟩ := List.forall_mem_cons.1 h
    have step : nextLocation l name = l ++ [name] := if_neg (by simpa using first)
    rw [List.foldl_cons, step, ih others, List.append_assoc]
    rfl

/-- **Names lead below the folder.** -/
theorem location_join {names : List String} (h : ∀ n ∈ names, n ≠ "..") (folder : Path) :
    (folder.join ⟨.relative, names⟩).location = folder.location ++ names := by
  rw [join_relative, location, List.foldl_append, foldl_nextLocation h]
  rfl

theorem IsInner.location_join {s : String} (h : IsInner s) (folder : Path) :
    (folder.join (ofText s)).location = folder.location ++ (ofText s).parts := by
  obtain ⟨names, -, named, rfl⟩ := isInner_iff.1 h
  rw [ofText_joined named]
  exact Path.location_join (fun n hn => (named n hn).ne_upwards) folder

end Path

namespace Tree

theorem follow_ok (t : Tree) {names : List String} {l m : Location} (h : t.follow l names = .ok m) :
    m = names.foldl Path.nextLocation l := by
  induction names generalizing l with
  | nil =>
    cases h
    rfl
  | cons name rest ih =>
    rw [List.foldl_cons, Path.nextLocation]
    unfold follow at h
    split at h
    · cases h
    · cases h
    · split at h
      · rename_i upwards
        rw [if_pos upwards]
        exact ih h
      · rename_i other
        rw [if_neg other]
        split at h
        · cases h
        · exact ih h

/-- **Where a path leads does not depend on the tree.** -/
theorem locate_ok {t : Tree} {p : Path} {l : Location} (h : t.locate p = .ok l) :
    l = p.location := by
  unfold locate at h
  split at h
  · cases h
  · split at h
    · cases h
    · exact t.follow_ok h

end Tree

/-! ## Relations between trees -/

namespace Tree

/-- Outside, no file is written and nothing goes away. -/
structure WritesOnly (inside : Location → Prop) (t t' : Tree) : Prop where
  files : ∀ l content, t'.at? l = some (.file content) → inside l ∨ t.at? l = some (.file content)
  kept : ∀ l e, t.at? l = some e → inside l ∨ t'.at? l = some e

/-- What is a file stays one. -/
def KeepsFile (l : Location) (t t' : Tree) : Prop :=
  (∃ content, t.at? l = some (.file content)) → ∃ content, t'.at? l = some (.file content)

/-- A relation that steps can be put together by. -/
structure IsPreorder (R : Tree → Tree → Prop) : Prop where
  refl : ∀ t, R t t
  trans : ∀ {t u v}, R t u → R u v → R t v

theorem isPreorder_writesOnly (inside : Location → Prop) : IsPreorder (WritesOnly inside) where
  refl _ := ⟨fun _ _ => .inr, fun _ _ => .inr⟩
  trans h g := by
    refine ⟨fun l content file => ?_, fun l e there => ?_⟩
    · rcases g.files l content file with inside | before
      · exact .inl inside
      · exact h.files l content before
    · rcases h.kept l e there with inside | after
      · exact .inl inside
      · exact g.kept l e after

theorem isPreorder_keeps (Q : Tree → Prop) : IsPreorder fun t u => Q t → Q u where
  refl _ := id
  trans h g := g ∘ h

theorem isPreorder_keepsFile (l : Location) : IsPreorder (KeepsFile l) := isPreorder_keeps _

variable {t : Tree} {l : Location}

theorem isStart_eq_false_of_ne (h : t.at? l ≠ some .directory) : isStart l = false := by
  unfold at? at h
  split at h
  · exact absurd rfl h
  · rename_i other
    simpa using other

theorem isStart_eq_false_of_none (h : t.at? l = none) : isStart l = false :=
  isStart_eq_false_of_ne fun there => Option.some_ne_none _ (there.symm.trans h)

theorem ne_of_none {m : Location} {e : Entry} (there : t.at? m = some e) (free : t.at? l = none) :
    m ≠ l := by
  rintro rfl
  rw [free] at there
  cases there

theorem writesOnly_put_directory (inside : Location → Prop) (free : t.at? l = none) :
    t.WritesOnly inside (t.put l .directory) := by
  refine ⟨fun m content file => .inr ?_, fun m e there => .inr ?_⟩
  · by_cases same : m = l
    · rw [same, at?_put_self (isStart_eq_false_of_none free)] at file
      cases file
    · rwa [at?_put_of_ne same] at file
  · rwa [at?_put_of_ne (ne_of_none there free)]

theorem writesOnly_put_file {inside : Location → Prop} (h : inside l) (content : List UInt8) :
    t.WritesOnly inside (t.put l (.file content)) := by
  refine ⟨fun m other file => ?_, fun m e there => ?_⟩
  · by_cases same : m = l
    · exact .inl (same ▸ h)
    · exact .inr (by rwa [at?_put_of_ne same] at file)
  · by_cases same : m = l
    · exact .inl (same ▸ h)
    · exact .inr (by rwa [at?_put_of_ne same])

theorem keepsFile_put_directory (m : Location) (free : t.at? l = none) :
    t.KeepsFile m (t.put l .directory) := by
  rintro ⟨content, there⟩
  exact ⟨content, by rwa [at?_put_of_ne (ne_of_none there free)]⟩

theorem keepsFile_put_file (m : Location) (h : t.at? l ≠ some .directory) (content : List UInt8) :
    t.KeepsFile m (t.put l (.file content)) := by
  rintro ⟨old, there⟩
  by_cases same : m = l
  · exact ⟨content, same ▸ at?_put_self (isStart_eq_false_of_ne h) t _⟩
  · exact ⟨old, by rwa [at?_put_of_ne same]⟩

end Tree

/-! ## Steps -/

namespace TreeStep

variable {α β : Type} {R : Tree → Tree → Prop}

/-- The tree before a step and the tree after it are related, however the step ends. -/
def Relates (R : Tree → Tree → Prop) (x : TreeStep α) : Prop := ∀ t, R t (x t).2

theorem Relates.after {x : TreeStep α} (h : Relates R x) {t t' : Tree} {result : Except Fault α}
    (e : x t = (result, t')) : R t t' := by
  have related := h t
  rwa [e] at related

theorem bind_eq (x : TreeStep α) (f : α → TreeStep β) (t : Tree) :
    (x >>= f) t = match x t with
      | (.ok a, t) => f a t
      | (.error e, t) => (.error e, t) := by
  show (match x t with | (a, t) => ExceptT.bindCont f a t) = _
  cases x t with
  | mk result t => cases result <;> rfl

theorem tryCatch_eq (x : TreeStep α) (handle : Fault → TreeStep α) (t : Tree) :
    tryCatch x handle t = match x t with
      | (.ok a, t) => (.ok a, t)
      | (.error e, t) => handle e t := by
  simp only [tryCatch, tryCatchThe, MonadExceptOf.tryCatch, ExceptT.tryCatch, ExceptT.mk, bind,
    StateT.bind]
  cases x t with
  | mk result t => cases result <;> rfl

theorem get_eq (t : Tree) : (get : TreeStep Tree) t = (.ok t, t) := rfl

theorem lift_eq (x : Except Fault α) (t : Tree) : (liftM x : TreeStep α) t = (x, t) := rfl

/-- A step that goes through went through in its two parts. -/
theorem bind_ok {x : TreeStep α} {f : α → TreeStep β} {t t' : Tree} {b : β}
    (h : (x >>= f) t = (.ok b, t')) : ∃ a u, x t = (.ok a, u) ∧ f a u = (.ok b, t') := by
  rw [bind_eq] at h
  split at h
  · rename_i a u first
    exact ⟨a, u, first, h⟩
  · cases h

section

variable (order : Tree.IsPreorder R)

include order

theorem relates_pure (a : α) : Relates R (pure a) := order.refl

theorem relates_throw (f : Fault) : Relates R (throw f : TreeStep α) := order.refl

theorem relates_get : Relates R (get : TreeStep Tree) := order.refl

theorem Relates.bind {x : TreeStep α} {f : α → TreeStep β} (h : Relates R x)
    (g : ∀ a, Relates R (f a)) :
    Relates R (x >>= f) := by
  intro t
  rw [bind_eq]
  split
  · rename_i a u e
    exact order.trans (h.after e) (g a u)
  · rename_i e
    exact h.after e

theorem Relates.tryCatch {x : TreeStep α} {handle : Fault → TreeStep α} (h : Relates R x)
    (g : ∀ f, Relates R (handle f)) : Relates R (tryCatch x handle) := by
  intro t
  rw [tryCatch_eq]
  split
  · rename_i e
    exact h.after e
  · rename_i f u e
    exact order.trans (h.after e) (g f u)

end

end TreeStep

namespace Tree

theorem makeNew_eq (p : Path) (t : Tree) :
    makeNew p t = match t.locate p with
      | .error f => (.error f, t)
      | .ok l => match t.at? l with
        | some _ => (.error .fileExists, t)
        | none => (.ok (), t.put l .directory) := by
  simp only [makeNew, TreeStep.bind_eq, TreeStep.get_eq, TreeStep.lift_eq]
  cases t.locate p with
  | error f => rfl
  | ok l =>
    dsimp only
    cases t.at? l <;> rfl

theorem write_eq (p : Path) (content : List UInt8) (t : Tree) :
    write p content t = match t.locate p with
      | .error f => (.error f, t)
      | .ok l => match t.at? l with
        | some .directory => (.error .isDirectory, t)
        | _ => (.ok (), t.put l (.file content)) := by
  simp only [write, TreeStep.bind_eq, TreeStep.get_eq, TreeStep.lift_eq]
  cases t.locate p with
  | error f => rfl
  | ok l =>
    dsimp only
    rcases t.at? l with - | - | - <;> rfl

/-! ## Making directories -/

section

variable {R : Tree → Tree → Prop} (order : IsPreorder R)

include order

theorem relates_acceptPresent (p : Path) (f : Fault) : TreeStep.Relates R (acceptPresent p f) := by
  refine (TreeStep.relates_get order).bind order fun t => ?_
  split
  · exact TreeStep.relates_pure order _
  · exact TreeStep.relates_throw order f

theorem relates_makeNew {p : Path}
    (free : ∀ {t : Tree}, t.at? p.location = none → R t (t.put p.location .directory)) :
    TreeStep.Relates R (makeNew p) := by
  intro t
  rw [makeNew_eq]
  split
  · exact order.refl t
  · rename_i l found
    obtain rfl := locate_ok found
    split
    · exact order.refl t
    · rename_i there
      exact free there

/-- Directories are made at a path and above it, where nothing is. -/
theorem relates_makeUpwards {root : PathRoot} {names : List String}
    (free : ∀ {above : List String}, above <+: names.reverse → ∀ {t : Tree},
      t.at? (Path.mk root above).location = none →
        R t (t.put (Path.mk root above).location .directory)) :
    TreeStep.Relates R (makeUpwards root names) := by
  induction names with
  | nil =>
    exact (relates_makeNew order (free (List.prefix_refl _))).tryCatch order
      (relates_acceptPresent order _)
  | cons name up ih =>
    have whole := relates_makeNew order (free (List.prefix_refl _))
    refine whole.tryCatch order fun f => ?_
    split
    · have upper := ih fun under => free (under.trans (by simp))
      exact upper.bind order fun _ => whole.tryCatch order (relates_acceptPresent order _)
    · exact relates_acceptPresent order _ f

theorem relates_makeDirectories {p : Path}
    (free : ∀ {above : List String}, above <+: p.parts → ∀ {t : Tree},
      t.at? (Path.mk p.root above).location = none →
        R t (t.put (Path.mk p.root above).location .directory)) :
    TreeStep.Relates R (makeDirectories p) :=
  relates_makeUpwards order fun under => free (by simpa using under)

end

/-! ## Writing files -/

section

variable {R : Tree → Tree → Prop} (order : IsPreorder R) {p : Path} {content : List UInt8}
  (taken : ∀ {t : Tree}, t.at? p.location ≠ some .directory →
    R t (t.put p.location (.file content)))

include order taken

theorem relates_write : TreeStep.Relates R (write p content) := by
  intro t
  rw [write_eq]
  split
  · exact order.refl t
  · rename_i l found
    obtain rfl := locate_ok found
    split
    · exact order.refl t
    · rename_i other
      exact taken other

theorem relates_place
    (free : ∀ {t : Tree} {l : Location}, t.at? l = none → R t (t.put l .directory)) :
    TreeStep.Relates R (place p content) :=
  (relates_makeDirectories order fun _ => free).bind order fun _ => relates_write order taken

end

theorem writesOnly_write {inside : Location → Prop} {p : Path} (h : inside p.location)
    (content : List UInt8) : TreeStep.Relates (WritesOnly inside) (write p content) :=
  relates_write (isPreorder_writesOnly inside) fun _ => writesOnly_put_file h content

theorem writesOnly_place {inside : Location → Prop} {p : Path} (h : inside p.location)
    (content : List UInt8) : TreeStep.Relates (WritesOnly inside) (place p content) :=
  relates_place (isPreorder_writesOnly inside) (fun _ => writesOnly_put_file h content)
    (writesOnly_put_directory inside)

theorem writesOnly_makeDirectories (inside : Location → Prop) (p : Path) :
    TreeStep.Relates (WritesOnly inside) (makeDirectories p) :=
  relates_makeDirectories (isPreorder_writesOnly inside) fun _ => writesOnly_put_directory inside

theorem keepsFile_write (l : Location) (p : Path) (content : List UInt8) :
    TreeStep.Relates (KeepsFile l) (write p content) :=
  relates_write (isPreorder_keepsFile l) fun other => keepsFile_put_file l other content

theorem keepsFile_place (l : Location) (p : Path) (content : List UInt8) :
    TreeStep.Relates (KeepsFile l) (place p content) :=
  relates_place (isPreorder_keepsFile l) (fun other => keepsFile_put_file l other content)
    (keepsFile_put_directory l)

/-- **A file that was written is there.** -/
theorem at?_write {p : Path} {content : List UInt8} {t t' : Tree}
    (h : write p content t = (.ok (), t')) :
    t'.at? p.location = some (.file content) := by
  rw [write_eq] at h
  split at h
  · cases h
  · rename_i l found
    obtain rfl := locate_ok found
    split at h
    · cases h
    · rename_i other
      cases h
      exact at?_put_self (isStart_eq_false_of_ne other) t _

theorem at?_write_of_ne {p : Path} {content : List UInt8} {t t' : Tree}
    (h : write p content t = (.ok (), t')) {l : Location} (other : l ≠ p.location) :
    t'.at? l = t.at? l := by
  rw [write_eq] at h
  split at h
  · cases h
  · rename_i l found
    obtain rfl := locate_ok found
    split at h
    · cases h
    · cases h
      exact at?_put_of_ne other t _

theorem at?_place {p : Path} {content : List UInt8} {t t' : Tree}
    (h : place p content t = (.ok (), t')) :
    t'.at? p.location = some (.file content) := by
  obtain ⟨_, u, _, written⟩ := TreeStep.bind_ok h
  exact at?_write written

end Tree

end SelectorCatalog
