import SelectorCatalog.Json.Reader

/-!
# Faults

A fault is what stops a step without being one of the failures that the step reports: a document
that does not have the expected shape, a text that is no number, a file that is in the way. Each has
a label, which is what an error column or a message shows of it.
-/

set_option autoImplicit false

namespace SelectorCatalog

/-- What stops a step. -/
inductive Fault where
  /-- A member or a text was asked of a value that has none. -/
  | noSuchField
  /-- A value cannot be used in this place. -/
  | wrongType
  /-- An object lacks a required member. -/
  | missingMember
  /-- The first item of nothing was asked for. -/
  | emptySequence
  /-- A number is past the greatest double, or infinite where a whole number is needed. -/
  | overflow
  | badValue (message : String)
  /-- A text is not a document. -/
  | badDocument (message : String)
  /-- Bytes are not UTF-8. -/
  | badEncoding
  /-- A settings text is not well formed. -/
  | badSettings
  /-- The name of a cached binary is not a release. -/
  | badRelease
  | fileNotFound
  | fileExists
  | notDirectory
  | isDirectory
  /-- A file may not be opened for reading. -/
  | notPermitted
  /-- The file system refuses a name. -/
  | fileSystem
  /-- A download site failed in an unforeseen way. -/
  | siteFailure
  /-- The user interrupted the run. -/
  | interrupted
  deriving DecidableEq, Inhabited

namespace Fault

/-- The label of a fault in messages. -/
def label : Fault → String
  | noSuchField => "AttributeError"
  | wrongType => "TypeError"
  | missingMember => "KeyError"
  | emptySequence => "IndexError"
  | overflow => "OverflowError"
  | badValue _ => "ValueError"
  | badDocument _ => "JSONDecodeError"
  | badEncoding => "UnicodeDecodeError"
  | badSettings => "YAMLError"
  | badRelease => "InvalidVersion"
  | fileNotFound => "FileNotFoundError"
  | fileExists => "FileExistsError"
  | notDirectory => "NotADirectoryError"
  | isDirectory => "IsADirectoryError"
  | notPermitted => "PermissionError"
  | fileSystem => "OSError"
  | siteFailure => "RuntimeError"
  | interrupted => "KeyboardInterrupt"

/-- The label, and what is known beyond it. -/
def report : Fault → String
  | badValue m => "ValueError: " ++ m
  | badDocument m => "JSONDecodeError: " ++ m
  | f => f.label

/-- Whether a fault comes from the file system. -/
def isFileFault : Fault → Bool
  | fileNotFound | fileExists | notDirectory | isDirectory | notPermitted | fileSystem => true
  | _ => false

/-- Whether a fault is an unusable value: a bad value, document or encoding. -/
def isValueFault : Fault → Bool
  | badValue _ | badDocument _ | badEncoding | badRelease => true
  | _ => false

/-- The message about an integer with too many digits. -/
def tooManyDigits (n : Nat) : Fault :=
  .badValue ("Exceeds the limit (" ++ toString Text.maxDigits
    ++ " digits) for integer string conversion: value has " ++ toString n
    ++ " digits; use sys.set_int_max_str_digits() to increase the limit")

/-- The fault of an integer that has too many digits to be written. -/
def tooLongToWrite : Fault :=
  .badValue ("Exceeds the limit (" ++ toString Text.maxDigits
    ++ " digits) for integer string conversion; "
    ++ "use sys.set_int_max_str_digits() to increase the limit")

/-- The fault of a text that was expected to be an integer. -/
def ofNumeral (s : String) : Text.NumeralFault → Fault
  | .malformed => .badValue ("invalid literal for int() with base 10: "
      ++ String.ofList ((Text.quoted s).toList.take 200))
  | .tooLong n => tooManyDigits n

end Fault

namespace Json

/-- The words for a reading failure and its place. -/
def ReadError.message : ReadError → String
  | .malformed what p => what.words ++ ": line " ++ toString p.line ++ " column "
      ++ toString p.column ++ " (char " ++ toString p.offset ++ ")"
  | .tooManyDigits n => (Fault.tooManyDigits n).report

/-- The fault of a text that was expected to be a document. -/
def ReadError.fault : ReadError → Fault
  | .malformed what p => .badDocument (message (.malformed what p))
  | .tooManyDigits n => Fault.tooManyDigits n

/-- The document that a text holds. -/
def parse (s : String) : Except Fault Value := (read s).mapError ReadError.fault

end Json

/-- The integer that a text denotes. -/
def integerOf (s : String) : Except Fault Int := (Text.readInteger s).mapError (Fault.ofNumeral s)

/-- The double that a text denotes. -/
def doubleOf (s : String) : Except Fault Double :=
  match Text.readDecimal? s with
  | some d => .ok (Double.ofDecimal d)
  | none => .error (.badValue ("could not convert string to float: " ++ Text.quoted s))

end SelectorCatalog
