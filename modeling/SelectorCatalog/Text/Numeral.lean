import SelectorCatalog.Text.Digit
import SelectorCatalog.Text.Blank

/-!
# Numerals

An integer numeral is a sign, if any, and decimal digits of any script, single underscores allowed
between digits; blanks may stand around it. A decimal numeral has a fraction or a power of ten as
well, or is one of the words for infinity and for what is not a number.
-/

set_option autoImplicit false

namespace SelectorCatalog.Text

/-- The blanks that may stand around a numeral: those of ASCII but for the separators, and all
others. -/
def isNumeralBlank (c : Char) : Bool :=
  if c.val < 128 then c == ' ' || (9 ≤ c.val && c.val ≤ 13) else isBlank c

/-- The numeral without the blanks around it. -/
def trimNumeral (s : List Char) : List Char :=
  ((s.dropWhile isNumeralBlank).reverse.dropWhile isNumeralBlank).reverse

/-- Takes a sign off the front: whether it was a minus, and the rest. -/
def takeSign : List Char → Bool × List Char
  | '-' :: rest => (true, rest)
  | '+' :: rest => (false, rest)
  | s => (false, s)

/-- The value of a run of decimal digits read from left to right. -/
def digitsValue (digits : List Nat) : Nat := digits.foldl (fun n d => 10 * n + d) 0

/-- The longest numeral that is read or written, in digits. -/
def maxDigits : Nat := 4300

/-- A number that has no more digits than are read and written. -/
def IsShort (n : Int) : Prop := (Nat.toDigits 10 n.natAbs).length ≤ maxDigits

instance (n : Int) : Decidable (IsShort n) := Nat.decLe _ _

/-- Why a text is not read as an integer. -/
inductive NumeralFault where
  /-- It is not an integer numeral. -/
  | malformed
  /-- It has more digits than are read. -/
  | tooLong (digits : Nat)
  deriving DecidableEq

/-- The digits of a run in which underscores stand singly between digits, and what follows the run;
`none` if an underscore is doubled or ends the run. `afterUnderscore` tells that an underscore was
just read. -/
def takeDigitRun (afterUnderscore : Bool) : List Char → Option (List Nat × List Char)
  | [] => if afterUnderscore then none else some ([], [])
  | c :: rest =>
    match digitValue? c with
    | some d => (takeDigitRun false rest).map fun (ds, r) => (d :: ds, r)
    | none =>
      if c == '_' then
        if afterUnderscore then none else takeDigitRun true rest
      else if afterUnderscore then none
      else some ([], c :: rest)

/-- The integer that a numeral denotes. -/
def readInteger (s : String) : Except NumeralFault Int := do
  let (negative, body) := takeSign (trimNumeral s.toList)
  match body with
  | '_' :: _ => throw .malformed
  | _ =>
    match takeDigitRun false body with
    | none => throw .malformed
    | some (ds, rest) =>
      if ds.length > maxDigits then throw (.tooLong ds.length)
      else if ds.isEmpty || !rest.isEmpty then throw .malformed
      else
        let n : Int := digitsValue ds
        return if negative then -n else n

/-- What a decimal numeral denotes: a word, or a signed whole number times a power of ten. -/
inductive Decimal where
  | notANumber
  | infinity (negative : Bool)
  | number (negative : Bool) (digits : Nat) (exponent : Int)
  deriving DecidableEq

/-- The ASCII form of a numeral's digits; other characters stay. -/
def asciiDigits (s : List Char) : List Char :=
  s.map fun c => match digitValue? c with
    | some d => Char.ofNat (48 + d)
    | none => c

/-- Removes the underscores of a decimal numeral; `none` if one does not stand between two
digits. -/
def dropUnderscores (last : Option Char) : List Char → Option (List Char)
  | [] => if last == some '_' then none else some []
  | c :: rest =>
    let afterDigit := last.any Char.isDigit
    if c == '_' then
      if afterDigit then dropUnderscores (some c) rest else none
    else if last == some '_' && !c.isDigit then none
    else (dropUnderscores (some c) rest).map (c :: ·)

/-- The values of the leading ASCII digits, and what follows them. -/
def spanDigits (s : List Char) : List Nat × List Char :=
  ((s.takeWhile Char.isDigit).map fun c => c.toNat - 48, s.dropWhile Char.isDigit)

/-- The power of ten at the end of a numeral, zero if there is none. -/
def readPower : List Char → Option Int
  | [] => some 0
  | c :: rest =>
    if c == 'e' || c == 'E' then
      let (negative, body) := takeSign rest
      let (ds, after) := spanDigits body
      if ds.isEmpty || !after.isEmpty then none
      else
        let n : Int := digitsValue ds
        some (if negative then -n else n)
    else none

/-- The decimal that an unsigned numeral without underscores denotes. -/
def readUnsigned (negative : Bool) (s : List Char) : Option Decimal :=
  let word := s.map Char.toLower
  if word == "inf".toList || word == "infinity".toList then some (.infinity negative)
  else if word == "nan".toList then some .notANumber
  else
    let (whole, rest) := spanDigits s
    let (part, rest) := match rest with
      | '.' :: r => spanDigits r
      | r => ([], r)
    if whole.isEmpty && part.isEmpty then none
    else (readPower rest).map fun p =>
      .number negative (digitsValue (whole ++ part)) (p - (part.length : Int))

/-- The decimal that a numeral denotes. -/
def readDecimal? (s : String) : Option Decimal := do
  let body ← dropUnderscores none (asciiDigits (trimNumeral s.toList))
  let (negative, unsigned) := takeSign body
  readUnsigned negative unsigned

end SelectorCatalog.Text
