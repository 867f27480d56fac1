import SelectorCatalog.Compiler.Resolver
import SelectorCatalog.Lexicographic

/-!
# The cache of compiler binaries

The store of binaries that the program works on is one directory, in which each binary is named for
its release.
-/

set_option autoImplicit false

namespace SelectorCatalog

/-- The directory of binaries: its path and the names in it. -/
structure Cache where
  directory : Path
  names : List String
  deriving DecidableEq, Inhabited

namespace Cache

/-- The beginning of the name of every binary. -/
def binaryMark : String := "solc-v"

/-- The name of the binary of a release. -/
def binaryName (release : String) : String := binaryMark ++ release

/-- The path of the binary of a release. -/
def binaryPath (c : Cache) (release : String) : Path :=
  c.directory.join ⟨.relative, [binaryName release]⟩

/-- Whether the binary of a release is at hand. -/
def holds (c : Cache) (release : String) : Bool := c.names.contains (binaryName release)

/-- The cache with the binary of a release. -/
def add (c : Cache) (release : String) : Cache :=
  if c.holds release then c else { c with names := c.names ++ [binaryName release] }

/-- The cache without the binary of a release. -/
def remove (c : Cache) (release : String) : Cache :=
  { c with names := c.names.filter (· != binaryName release) }

/-! ## Listing -/

/-- The numbers of the release that a name stands for, a `v` before them skipped. -/
def numbersOf? (release : List Char) : Option (List Nat) :=
  let body := match release with
    | 'v' :: rest => rest
    | s => s
  (body.splitOn '.').mapM fun group =>
    if group.isEmpty || !group.all Char.isDigit then none
    else some (Text.digitsValue (group.map fun c => c.toNat - 48))

/-- The numbers without the zeros at their end, by which releases are compared. -/
def significant (numbers : List Nat) : List Nat :=
  (numbers.reverse.dropWhile (· == 0)).reverse

/-- The releases at hand, the newest first. -/
def installed (c : Cache) : Except Fault (List String) := do
  let found ← (c.names.filter fun n => binaryMark.toList.isPrefixOf n.toList).mapM fun n =>
    match numbersOf? (n.toList.drop binaryMark.length) with
    | some numbers => .ok numbers
    | none => .error .badRelease
  let newestFirst := found.mergeSort fun a b =>
    lexUpTo (fun m n => decide (m < n)) (significant b) (significant a)
  return newestFirst.map fun numbers => ".".intercalate (numbers.map fun n => toString n)

/-! ## Finding -/

/-- The binary of a release. -/
def find (c : Cache) (release : Release) : Except CompileFailure Path :=
  if release.before Release.oldest then .error (.unsupported release)
  else if c.holds release.render then .ok (c.binaryPath release.render)
  else .error (.notInstalled release)

end Cache

instance : BinaryStore Cache where
  find c release := (c.find release).mapError .failure
  installed := Cache.installed
  install := Cache.add

end SelectorCatalog
