/-!
# Kinds of failure

Every failure that a step reports is of a kind, whose label is stored with a contract that could not
be indexed, so that failures can be counted by kind. Kinds form a tree: a kind is a special case of
its ancestors.
-/

set_option autoImplicit false

namespace SelectorCatalog

/-- The kinds of failure. -/
inductive FailureKind where
  /-- Any failure. -/
  | indexing
  | malformedRecord
  /-- Any failure to compile. -/
  | compiling
  | missingBinary
  | ambiguousVersion
  | compileTimeout
  | compileDiagnostics
  | processCrash
  /-- Any failure to find the functions of a compiled contract. -/
  | extracting
  | selectorMismatch
  | missingContract
  | storage
  | unknownContract
  deriving DecidableEq, Inhabited

namespace FailureKind

/-- The label of a kind. -/
def label : FailureKind → String
  | indexing => "indexer_error"
  | malformedRecord => "malformed_record"
  | compiling => "compile_error"
  | missingBinary => "missing_binary"
  | ambiguousVersion => "ambiguous_version"
  | compileTimeout => "compile_timeout"
  | compileDiagnostics => "compile_diagnostics"
  | processCrash => "process_crash"
  | extracting => "extraction_error"
  | selectorMismatch => "selector_mismatch"
  | missingContract => "missing_contract"
  | storage => "storage_error"
  | unknownContract => "unknown_contract"

/-- All kinds. -/
def all : List FailureKind :=
  [indexing, malformedRecord, compiling, missingBinary, ambiguousVersion, compileTimeout,
    compileDiagnostics, processCrash, extracting, selectorMismatch, missingContract, storage,
    unknownContract]

/-- The kind of a label. -/
def ofLabel? (s : String) : Option FailureKind := all.find? fun k => k.label == s

theorem ofLabel?_label (k : FailureKind) : ofLabel? k.label = some k := by cases k <;> decide

/-- The kinds that a kind is a special case of, the nearest first. -/
def ancestors : FailureKind → List FailureKind
  | indexing => []
  | missingBinary | ambiguousVersion | compileTimeout | compileDiagnostics | processCrash =>
    [compiling, indexing]
  | selectorMismatch | missingContract => [extracting, indexing]
  | _ => [indexing]

/-- The text of a failure: its kind, the contract that it is about if one is known, and its
message. -/
def render (kind : FailureKind) (contractId : Option String) (message : String) : String :=
  "[" ++ kind.label ++ "] " ++ match contractId with
    | some id => if id.isEmpty then message else id ++ ": " ++ message
    | none => message

end FailureKind

end SelectorCatalog
