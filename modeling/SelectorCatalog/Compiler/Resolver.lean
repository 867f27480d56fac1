import SelectorCatalog.Compiler.Failure
import SelectorCatalog.Files.Path

/-!
# Finding and fetching the binaries of releases

The binaries of releases lie in a store that another package keeps. `BinaryStore` is all that is
used of it: where the binary of a release is found, which releases are listed, and what the store is
once a release was fetched. Nothing is assumed of the three.

Finding a binary never fetches it: a release that is not at hand is a failure. Fetching is a
separate step, which skips what is at hand and goes on after a release that could not be fetched.

A `Resolver` remembers where it found a release. It never remembers that a release was missing, and
it forgets everything once releases were fetched.
-/

set_option autoImplicit false

namespace SelectorCatalog

/-- What is used of a store of binaries, in any of its states. -/
class BinaryStore (σ : Type) where
  /-- Where the binary of a release is found, or why it is not. -/
  find : σ → Release → Except (Stop CompileFailure) Path
  /-- The releases that are listed as being at hand. -/
  installed : σ → Except Fault (List String)
  /-- The store after a release was fetched. -/
  install : σ → String → σ

variable {σ : Type} [BinaryStore σ]

/-! ## Finding with a memory -/

/-- The binaries found so far, by release. -/
structure Resolver where
  found : List (Release × Path) := []
  deriving DecidableEq, Inhabited

namespace Resolver

/-- The release that a contract declares, or the failure to compile it. -/
def releaseOf (declared : Option String) : Except (Stop CompileFailure) Release :=
  (Release.ofDeclared declared).mapError (Stop.map .version)

/-- The remembered binary of a release. -/
def remembered? (r : Resolver) (release : Release) : Option Path :=
  (r.found.find? fun e => e.1 = release).map Prod.snd

/-- Finds the binary of a declared release, in the memory first. -/
def resolve (r : Resolver) (s : σ) (declared : Option String) :
    Except (Stop CompileFailure) Path × Resolver :=
  match releaseOf declared with
  | .error stop => (.error stop, r)
  | .ok release =>
    match r.remembered? release with
    | some path => (.ok path, r)
    | none => match BinaryStore.find s release with
      | .ok path => (.ok path, ⟨r.found ++ [(release, path)]⟩)
      | .error stop => (.error stop, r)

end Resolver

/-- The binary of the release that a contract declares. -/
def BinaryStore.resolve (s : σ) (declared : Option String) : Except (Stop CompileFailure) Path := do
  BinaryStore.find s (← Resolver.releaseOf declared)

/-! ## Fetching -/

/-- What an attempt to fetch a release comes to. -/
inductive FetchOutcome where
  | fetched
  | refused (reason : String)
  /-- The site failed in an unforeseen way. -/
  | crashed
  deriving DecidableEq

/-- What fetching came to. -/
structure DownloadSummary where
  installed : List String := []
  skipped : List String := []
  /-- The reasons by release. -/
  failed : OrderedMap String := .empty

/-- Whether no release failed. -/
def DownloadSummary.succeeded (s : DownloadSummary) : Bool := s.failed.isEmpty

/-- Where releases are fetched from. -/
structure Site where
  /-- The releases on offer. -/
  offered : List String
  /-- What an attempt to fetch a release comes to, by the number of attempts before it. -/
  fetch : Nat → String → FetchOutcome

/-- The releases that a download is asked for: the given ones, or all on offer. -/
def Site.wanted (site : Site) : Option (List String) → Except (Stop VersionFlaw) (List String)
  | none => .ok site.offered
  | some declared => declared.mapM fun s => (Release.parse s).map Release.render

namespace BinaryStore

/-- Fetches releases one after the other; those that were `present` at the start are skipped. The
first argument counts the attempts. -/
def fetchEach (site : Site) (present : List String) :
    Nat → List String → σ → DownloadSummary → Except Fault DownloadSummary × σ
  | _, [], s, summary => (.ok summary, s)
  | made, release :: rest, s, summary =>
    if present.contains release then
      fetchEach site present made rest s { summary with skipped := summary.skipped ++ [release] }
    else match site.fetch made release with
      | .fetched =>
        fetchEach site present (made + 1) rest (install s release)
          { summary with installed := summary.installed ++ [release] }
      | .refused reason =>
        fetchEach site present (made + 1) rest s
          { summary with failed := summary.failed.insert release reason }
      | .crashed => (.error .siteFailure, s)

/-- Fetches the releases that are asked for and not at hand. -/
def download (site : Site) (asked : Option (List String)) (s : σ) :
    Except (Stop VersionFlaw) DownloadSummary × σ :=
  match site.wanted asked with
  | .error stop => (.error stop, s)
  | .ok releases =>
    match installed s with
    | .error fault => (.error (.fault fault), s)
    | .ok present =>
      let (result, s) := fetchEach site present 0 releases s {}
      (Stop.lift result, s)

end BinaryStore

/-- Fetches releases; what was remembered is forgotten if that went to its end. -/
def Resolver.download (r : Resolver) (site : Site) (asked : Option (List String)) (s : σ) :
    Except (Stop VersionFlaw) DownloadSummary × σ × Resolver :=
  match BinaryStore.download site asked s with
  | (.ok summary, s) => (.ok summary, s, {})
  | (.error stop, s) => (.error stop, s, r)

end SelectorCatalog
