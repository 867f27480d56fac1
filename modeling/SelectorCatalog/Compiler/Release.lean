import SelectorCatalog.Json.Shape
import SelectorCatalog.Stop

/-!
# Compiler releases

A contract declares its compiler as a pinned release: three numbers, perhaps after a `v` and before
build or pre-release tags, which do not count. Ranges and constraints name no single release and are
refused.
-/

set_option autoImplicit false

namespace SelectorCatalog

/-- A release of the compiler. -/
structure Release where
  major : Nat
  minor : Nat
  patch : Nat
  deriving DecidableEq, Inhabited

/-- Why a declared version names no release. -/
inductive VersionFlaw where
  | missing
  | range (declared : String)
  | notPinned (declared : String)
  deriving DecidableEq

/-- The words for a flaw. -/
def VersionFlaw.message : VersionFlaw → String
  | missing => "Empty compiler version"
  | range s => "Compiler version " ++ Text.quoted s ++ " is a range, not a pinned release"
  | notPinned s => "Cannot parse compiler version " ++ Text.quoted s

namespace Release

/-- The text of a release. -/
def render (r : Release) : String :=
  toString r.major ++ "." ++ toString r.minor ++ "." ++ toString r.patch

/-- The characters that only a range has. -/
def marksRange (c : Char) : Bool :=
  c == '^' || c == '~' || c == '<' || c == '>' || c == '=' || c == '*' || c == '|' || c == 'x'
    || c == 'X' || Text.isBlank c

/-- The part of a declared version before its tags, without the `v` in front. -/
def untagged (declared : List Char) : List Char :=
  let body := match declared with
    | c :: rest => if c == 'v' || c == 'V' then rest else c :: rest
    | [] => []
  body.takeWhile fun c => c != '+' && c != '-'

/-- A group of digits at the front, which may be empty, and what follows it. -/
def takeGroup (s : List Char) : List Char × List Char :=
  (s.takeWhile Text.isDecimalDigit, s.dropWhile Text.isDecimalDigit)

/-- The three groups of digits between two points. -/
def groups? (s : List Char) : Option (List Char × List Char × List Char) :=
  match takeGroup s with
  | (a, '.' :: s) => match takeGroup s with
    | (b, '.' :: s) => match takeGroup s with
      | (c, []) => if a.isEmpty || b.isEmpty || c.isEmpty then none else some (a, b, c)
      | _ => none
    | _ => none
  | _ => none

/-- The number that a group of digits denotes. -/
def numberOf (group : List Char) : Except Fault Nat :=
  let ds := group.filterMap Text.digitValue?
  if ds.length > Text.maxDigits then .error (Fault.tooManyDigits ds.length)
  else .ok (Text.digitsValue ds)

/-- The release that a declared version pins. -/
def parse (declared : String) : Except (Stop VersionFlaw) Release := do
  let raw := Text.trim declared
  if raw.isEmpty then throw (.failure .missing)
  let core := untagged raw.toList
  if core.any marksRange then throw (.failure (.range raw))
  match groups? core with
  | none => throw (.failure (.notPinned raw))
  | some (a, b, c) => Stop.lift do
    return ⟨← numberOf a, ← numberOf b, ← numberOf c⟩

/-- The release that a value declares. -/
def ofValue (v : Value) : Except (Stop VersionFlaw) Release :=
  if v.isGiven then Stop.lift v.asText >>= parse else .error (.failure .missing)

/-- The release that a contract declares. -/
def ofDeclared (declared : Option String) : Except (Stop VersionFlaw) Release :=
  ofValue (Value.ofText? declared)

/-- The first release that the cache of binaries can hold. -/
def oldest : Release := ⟨0, 4, 11⟩

/-- Whether a release comes before another one. -/
def before (a b : Release) : Bool :=
  a.major < b.major || a.major == b.major &&
    (a.minor < b.minor || a.minor == b.minor && a.patch < b.patch)

end Release

end SelectorCatalog
