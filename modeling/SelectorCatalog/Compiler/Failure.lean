import SelectorCatalog.Compiler.Release
import SelectorCatalog.FailureKind

/-!
# Failures to compile

Why a contract does not compile, with the kind and the words for it. Only what may pass by itself is
worth another attempt: a crash of the process and a spent time budget.
-/

set_option autoImplicit false

namespace SelectorCatalog

/-- Why a contract does not compile. -/
inductive CompileFailure where
  /-- The declared version names no release. -/
  | version (flaw : VersionFlaw)
  /-- The release is too old for the cache of binaries. -/
  | unsupported (release : Release)
  /-- The binary of the release is not in the cache. -/
  | notInstalled (release : Release)
  | timeout (budget : Double)
  | cannotExecute (binary : String) (reason : String)
  | exited (code : Int) (complaint : String)
  | unreadable (output : String)
  /-- The compiler found errors. -/
  | diagnostics (errors : List String)
  | noContracts

namespace CompileFailure

/-- The first characters of a text. -/
def clip (n : Nat) (s : String) : String := String.ofList (s.toList.take n)

/-- The words for a missing binary. -/
def missing (release : Release) (reason : String) : String :=
  "solc " ++ release.render ++ " is not installed; run \x60download-solc\x60 first (" ++
    reason ++ ")"

/-- The words for what the compiler found: the first lines of the errors, cut to a bounded
length. -/
def summary (errors : List String) : String :=
  clip 2000 (toString errors.length ++ " compiler error(s): "
    ++ "; ".intercalate (errors.filterMap Text.firstLine?))

/-- The words for a failure. -/
def message : CompileFailure → String
  | version flaw => flaw.message
  | unsupported r => missing r "py-solc-x does not support solc versions <0.4.11"
  | notInstalled r => missing r ("solc " ++ r.render
      ++ " has not been installed. Use solcx.install_solc(" ++ Text.quoted r.render
      ++ ") to install.")
  | timeout budget => "solc exceeded the " ++ budget.renderBudget ++ "s time budget"
  | cannotExecute binary reason => "Could not execute " ++ binary ++ ": " ++ reason
  | exited code complaint =>
    "solc exited with code " ++ toString code ++ ": " ++ clip 500 (Text.trim complaint)
  | unreadable output => "solc produced unreadable output: " ++ Text.quoted (clip 200 output)
  | diagnostics errors => summary errors
  | noContracts => "solc produced no contracts"

/-- The kind of a failure. -/
def kind : CompileFailure → FailureKind
  | version _ => .ambiguousVersion
  | unsupported _ | notInstalled _ => .missingBinary
  | timeout _ => .compileTimeout
  | cannotExecute _ _ | exited _ _ | unreadable _ => .processCrash
  | diagnostics _ | noContracts => .compileDiagnostics

/-- The errors that the compiler found. -/
def errors : CompileFailure → List String
  | diagnostics es => es
  | _ => []

/-- The exit code of a process that ended with one. -/
def exitCode? : CompileFailure → Option Int
  | exited code _ => some code
  | _ => none

/-- Whether the process crashed. -/
def isCrash (f : CompileFailure) : Bool := f.kind = .processCrash

/-- Whether the time budget was spent. -/
def isTimeout (f : CompileFailure) : Bool := f.kind = .compileTimeout

end CompileFailure

end SelectorCatalog
