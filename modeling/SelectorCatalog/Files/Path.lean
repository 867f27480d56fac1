/-!
# Paths

A path starts at the working directory or at a root and names one component after the other.
Components that are empty or a single point are dropped when a path is read, so a path has one
written form. Exactly two leading slashes are a root of their own; three and more are one.
-/

set_option autoImplicit false

namespace SelectorCatalog

/-- Where a path starts. -/
inductive PathRoot where
  /-- The working directory. -/
  | relative
  | absolute
  | doubled
  deriving DecidableEq, Inhabited

/-- The text of a root. -/
def PathRoot.text : PathRoot → String
  | relative => ""
  | absolute => "/"
  | doubled => "//"

/-- A path. -/
structure Path where
  root : PathRoot
  parts : List String
  deriving DecidableEq, Inhabited

namespace Path

/-- The root that the text of a path has. -/
def rootOf : List Char → PathRoot
  | '/' :: '/' :: '/' :: _ => .absolute
  | '/' :: '/' :: _ => .doubled
  | '/' :: _ => .absolute
  | _ => .relative

/-- Whether a component counts when a path is read. -/
def isComponent (part : List Char) : Bool := !part.isEmpty && part != ['.']

/-- The components of the text of a path. -/
def partsOf (s : List Char) : List String :=
  ((s.splitOn '/').filter isComponent).map String.ofList

/-- The path of a text. -/
def ofText (s : String) : Path := ⟨rootOf s.toList, partsOf s.toList⟩

/-- The text of a path. -/
def render (p : Path) : String :=
  if p.root = .relative && p.parts.isEmpty then "." else p.root.text ++ "/".intercalate p.parts

/-- The root, if the path has one of its own, and the components. -/
def components (p : Path) : List String :=
  if p.root = .relative then p.parts else p.root.text :: p.parts

/-- A path below another one; one that has a root of its own stands alone. -/
def join (p q : Path) : Path := if q.root = .relative then ⟨p.root, p.parts ++ q.parts⟩ else q

/-- The path one component up. -/
def parent (p : Path) : Path := { p with parts := p.parts.dropLast }

/-- The last component, empty if there is none. -/
def name (p : Path) : String := p.parts.getLast?.getD ""

/-- A name parted at its last point, if something stands on both sides of it. -/
def splitName (name : String) : String × String :=
  let backwards := name.toList.reverse
  let ending := backwards.takeWhile (· != '.')
  match backwards.dropWhile (· != '.') with
  | _ :: stem =>
    if ending.isEmpty || stem.isEmpty then (name, "")
    else (String.ofList stem.reverse, String.ofList ('.' :: ending.reverse))
  | [] => (name, "")

/-- The end of the last component from its last point on, empty if it has none. -/
def suffix (p : Path) : String := (splitName p.name).2

/-- The path without the suffix of its last component. -/
def withoutSuffix (p : Path) : Path :=
  if p.parts.isEmpty then p else { p with parts := p.parts.dropLast ++ [(splitName p.name).1] }

/-- Takes a component onto a path that is listed from its last component on. A step upwards takes
one off, if there is one to take. -/
def stepOnto (root : PathRoot) (kept : List String) (part : String) : List String :=
  if part != ".." then part :: kept
  else match kept with
    | [] => if root = .relative then [part] else []
    | top :: rest => if top == ".." then part :: kept else rest

/-- The path with steps upwards resolved by the names alone. -/
def collapsed (p : Path) : Path := { p with parts := (p.parts.foldl (stepOnto p.root) []).reverse }

@[simp] theorem join_relative (p : Path) (parts : List String) :
    p.join ⟨.relative, parts⟩ = ⟨p.root, p.parts ++ parts⟩ := by
  simp [join]

end Path

end SelectorCatalog
