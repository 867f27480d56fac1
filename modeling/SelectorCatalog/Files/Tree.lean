import SelectorCatalog.Files.Path
import SelectorCatalog.Fault
import SelectorCatalog.Lexicographic
import SelectorCatalog.Text.Utf8

/-!
# Trees of files

A `Tree` holds the files and directories that a run reads and writes, by location. A location lists
the names on the way from the working directory, or from the root if it starts with a slash.
Operations on a tree fail the way a file system refuses them, and what was done before a failure
stays done.
-/

set_option autoImplicit false

namespace SelectorCatalog

/-- The names on the way to a file. -/
abbrev Location := List String

/-- What is found at a location. -/
inductive Entry where
  | directory
  | file (content : List UInt8)
  deriving DecidableEq, Inhabited

/-- Files and directories by location. The starting points are always there and not listed. -/
structure Tree where
  entries : List (Location × Entry) := []
  /-- The files that may not be opened for reading. -/
  closed : List Location := []
  deriving Inhabited

/-- A step that reads and changes a tree. -/
abbrev TreeStep (α : Type) := ExceptT Fault (StateM Tree) α

namespace Tree

/-- Whether a location is the root, the working directory or a directory above it. -/
def isStart (l : Location) : Bool := l == ["/"] || l.all (· == "..")

/-- What is at a location. -/
def at? (t : Tree) (l : Location) : Option Entry :=
  if isStart l then some .directory else t.entries.lookup l

/-- Puts an entry at a location. -/
def put (t : Tree) (l : Location) (e : Entry) : Tree :=
  { t with entries := t.entries.filter (fun x => x.1 != l) ++ [(l, e)] }

theorem at?_put_self {l : Location} (h : isStart l = false) (t : Tree) (e : Entry) :
    (t.put l e).at? l = some e := by
  have gone : (t.entries.filter fun x => x.1 != l).lookup l = none := by
    rw [List.lookup_eq_none_iff]
    intro x hx
    have other : x.1 ≠ l := by simpa using (List.mem_filter.1 hx).2
    exact bne_iff_ne.2 other.symm
  simp [at?, put, h, List.lookup_append, gone]

theorem at?_put_of_ne {l m : Location} (h : m ≠ l) (t : Tree) (e : Entry) :
    (t.put l e).at? m = t.at? m := by
  have other : (m == l) = false := beq_false_of_ne h
  have kept (entries : List (Location × Entry)) :
      (entries.filter fun x => x.1 != l).lookup m = entries.lookup m := by
    induction entries with
    | nil => rfl
    | cons x rest ih =>
      obtain ⟨k, f⟩ := x
      by_cases hk : k = l
      · subst hk
        simp [List.lookup_cons, other, ih]
      · simp [List.lookup_cons, hk, ih]
  simp [at?, put, List.lookup_append, kept, List.lookup_cons, other]

/-- The location one step up. -/
def above (l : Location) : Location :=
  if l == ["/"] then l else if l.all (· == "..") then l ++ [".."] else l.dropLast

/-- The longest name of a file, in bytes. -/
def longestName : Nat := 255

/-- The longest path, in bytes. -/
def longestPath : Nat := 4095

/-- The number of bytes that a text takes. -/
def byteCount (s : String) : Nat := (Text.utf8 s.toList).length

/-- Follows names from a location; each must be looked up in a directory. -/
def follow (t : Tree) : Location → List String → Except Fault Location
  | l, [] => .ok l
  | l, name :: rest =>
    match t.at? l with
    | none => .error .fileNotFound
    | some (.file _) => .error .notDirectory
    | some .directory =>
      if name == ".." then t.follow (above l) rest
      else if byteCount name > longestName then .error .fileSystem
      else t.follow (l ++ [name]) rest

/-- The location that a path leads to, whether something is there or not. -/
def locate (t : Tree) (p : Path) : Except Fault Location :=
  if p.parts.any fun s => s.toList.contains (Char.ofNat 0) then
    .error (.badValue "embedded null byte")
  else if byteCount p.render > longestPath then .error .fileSystem
  else t.follow (if p.root = .relative then [] else ["/"]) p.parts

/-- What a path leads to. -/
def find (t : Tree) (p : Path) : Except Fault Entry := do
  match t.at? (← t.locate p) with
  | some e => return e
  | none => throw .fileNotFound

/-- Whether a path leads to something. -/
def hasEntry (t : Tree) (p : Path) : Except Fault Bool :=
  match t.find p with
  | .ok _ => .ok true
  | .error .fileSystem => .error .fileSystem
  | .error _ => .ok false

/-- Whether a path leads to a directory. -/
def isDirectory (t : Tree) (p : Path) : Bool := t.find p matches .ok .directory

/-- The content of the file at a location, if it may be opened. -/
def opened (t : Tree) (l : Location) (content : List UInt8) : Option (List UInt8) :=
  if t.closed.contains l then none else some content

/-- The content of the file that a path leads to. -/
def read (t : Tree) (p : Path) : Except Fault (List UInt8) := do
  match ← t.find p with
  | .file content =>
    match t.opened (← t.locate p) content with
    | some content => return content
    | none => throw .notPermitted
  | .directory => throw .isDirectory

/-- Writes a file, whose directory must be there. -/
def write (p : Path) (content : List UInt8) : TreeStep Unit := do
  let t ← get
  let l ← t.locate p
  match t.at? l with
  | some .directory => throw .isDirectory
  | _ => set (t.put l (.file content))

/-- Makes a directory where nothing is. -/
def makeNew (p : Path) : TreeStep Unit := do
  let t ← get
  let l ← t.locate p
  match t.at? l with
  | some _ => throw .fileExists
  | none => set (t.put l .directory)

/-- Accepts a failure to make a directory that is there. -/
def acceptPresent (p : Path) (f : Fault) : TreeStep Unit := do
  if f.isFileFault && (← get).isDirectory p then return else throw f

/-- Makes the directory of a root and of component names that are listed from the last one up, and
the directories above it where they are missing. -/
def makeUpwards (root : PathRoot) : List String → TreeStep Unit
  | [] => tryCatch (makeNew ⟨root, []⟩) (acceptPresent ⟨root, []⟩)
  | name :: up => do
    let p : Path := ⟨root, (name :: up).reverse⟩
    tryCatch (makeNew p) fun f => do
      if f = .fileNotFound then
        makeUpwards root up
        tryCatch (makeNew p) (acceptPresent p)
      else acceptPresent p f

/-- Makes a directory and the directories above it where they are missing. -/
def makeDirectories (p : Path) : TreeStep Unit := makeUpwards p.root p.parts.reverse

/-- Writes a file and makes the directories above it. -/
def place (p : Path) (content : List UInt8) : TreeStep Unit := do
  makeDirectories p.parent
  write p content

/-- The names under a location, in the order of the names on the way: those of one directory
together, and what is in a directory after it. -/
def below (t : Tree) (l : Location) : List (List String × Entry) :=
  (t.entries.filterMap fun x =>
    if l.isPrefixOf x.1 && x.1 != l then some (x.1.drop l.length, x.2) else none).mergeSort
    fun a b => namesUpTo a.1 b.1

/-- The directory that a path leads to; nothing if it leads elsewhere. -/
def directory? (t : Tree) (p : Path) : Option Location :=
  match t.locate p with
  | .ok l => if t.at? l = some .directory then some l else none
  | .error _ => none

/-- The files below the directory that a path leads to, in order, with their paths. -/
def filesBelow (t : Tree) (p : Path) : List (Path × List UInt8) :=
  match t.directory? p with
  | none => []
  | some l => (t.below l).filterMap fun x => match x.2 with
    | .file content => some (p.join ⟨.relative, x.1⟩, content)
    | .directory => none

end Tree

end SelectorCatalog
