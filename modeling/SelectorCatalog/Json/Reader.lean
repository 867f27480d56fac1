import SelectorCatalog.Json.Value

/-!
# Reading documents

The reader accepts JSON, the words `NaN`, `Infinity` and `-Infinity` as numbers, and nothing around
a document but space, tab, line feed and carriage return. Of two members of one name the last value
counts, at the place of the first. A failure tells what was expected and where.

Each reading function takes the text that is left and gives back what is left after it, so a place
is told by the number of characters left, and turned into line and column at the end (`place`).
-/

set_option autoImplicit false

namespace SelectorCatalog.Json

/-- What the reader found wrong. -/
inductive Complaint where
  | expectedValue
  | expectedName
  | expectedColon
  | expectedComma
  | extraData
  | unterminatedText
  | controlCharacter
  | badEscape
  | badUnicodeEscape
  | byteOrderMark
  deriving DecidableEq

/-- The words for a complaint. -/
def Complaint.words : Complaint → String
  | .expectedValue => "Expecting value"
  | .expectedName => "Expecting property name enclosed in double quotes"
  | .expectedColon => "Expecting ':' delimiter"
  | .expectedComma => "Expecting ',' delimiter"
  | .extraData => "Extra data"
  | .unterminatedText => "Unterminated string starting at"
  | .controlCharacter => "Invalid control character at"
  | .badEscape => "Invalid \\escape"
  | .badUnicodeEscape => "Invalid \\uXXXX escape"
  | .byteOrderMark => "Unexpected UTF-8 BOM (decode using utf-8-sig)"

/-- A failure inside a text: a complaint with the number of characters left, or an integer with more
digits than are read. -/
inductive Failure where
  | complaint (what : Complaint) (left : Nat)
  | tooManyDigits (digits : Nat)
  deriving DecidableEq

/-- A failure at the text `rest`. -/
def fail {α : Type} (what : Complaint) (rest : List Char) : Except Failure α :=
  .error (.complaint what rest.length)

/-- Blanks between the parts of a document. -/
def isSpace (c : Char) : Bool := c == ' ' || c == '\t' || c == '\n' || c == '\r'

/-- The text without leading blanks. -/
def skipSpace (s : List Char) : List Char := s.dropWhile isSpace

/-- The number of four hexadecimal digits. -/
def hexQuad? (a b c d : Char) : Option Nat := do
  let a ← Text.hexValue? a
  let b ← Text.hexValue? b
  let c ← Text.hexValue? c
  let d ← Text.hexValue? d
  return ((a * 16 + b) * 16 + c) * 16 + d

/-- The character of a one-letter escape. -/
def escaped? (c : Char) : Option Char :=
  if c == '"' || c == '\\' || c == '/' then some c
  else if c == 'b' then some '\x08'
  else if c == 'f' then some '\x0c'
  else if c == 'n' then some '\n'
  else if c == 'r' then some '\r'
  else if c == 't' then some '\t'
  else none

/-- A surrogate that opens a pair. -/
def isHighSurrogate (n : Nat) : Bool := 0xD800 ≤ n && n ≤ 0xDBFF

/-- A surrogate that closes a pair. -/
def isLowSurrogate (n : Nat) : Bool := 0xDC00 ≤ n && n ≤ 0xDFFF

/-- The character of a number. Half a surrogate pair has none and becomes U+FFFD: what a text holds
of such halves is left out. -/
def charOf (n : Nat) : Char :=
  if isHighSurrogate n || isLowSurrogate n then Char.ofNat 0xFFFD else Char.ofNat n

/-- Reads a text up to its closing quote; `start` is the text from its opening quote on. -/
def readText (start : List Char) : List Char → Except Failure (List Char × List Char)
  | [] => fail .unterminatedText start
  | '"' :: rest => .ok ([], rest)
  | '\\' :: 'u' :: a :: b :: c :: d :: '\\' :: 'u' :: e :: f :: g :: h :: x :: rest =>
    match hexQuad? a b c d with
    | none => fail .badUnicodeEscape
        ('u' :: a :: b :: c :: d :: '\\' :: 'u' :: e :: f :: g :: h :: x :: rest)
    | some first =>
      if isHighSurrogate first then
        match hexQuad? e f g h with
        | none => fail .badUnicodeEscape ('u' :: e :: f :: g :: h :: x :: rest)
        | some second =>
          if isLowSurrogate second then
            (readText start (x :: rest)).map fun (cs, r) =>
              (Char.ofNat (0x10000 + (first - 0xD800) * 0x400 + (second - 0xDC00)) :: cs, r)
          else
            (readText start ('\\' :: 'u' :: e :: f :: g :: h :: x :: rest)).map fun (cs, r) =>
              (charOf first :: cs, r)
      else
        (readText start ('\\' :: 'u' :: e :: f :: g :: h :: x :: rest)).map fun (cs, r) =>
          (charOf first :: cs, r)
  | '\\' :: 'u' :: a :: b :: c :: d :: x :: rest =>
    match hexQuad? a b c d with
    | none => fail .badUnicodeEscape ('u' :: a :: b :: c :: d :: x :: rest)
    | some n => (readText start (x :: rest)).map fun (cs, r) => (charOf n :: cs, r)
  | '\\' :: 'u' :: rest => fail .badUnicodeEscape ('u' :: rest)
  | ['\\'] => fail .unterminatedText start
  | '\\' :: c :: rest =>
    match escaped? c with
    | none => fail .badEscape ('\\' :: c :: rest)
    | some e => (readText start rest).map fun (cs, r) => (e :: cs, r)
  | c :: rest =>
    if c.val < 0x20 then fail .controlCharacter (c :: rest)
    else (readText start rest).map fun (cs, r) => (c :: cs, r)
  termination_by s => s.length

/-- The digits of a whole part: a lone zero, or digits that do not start with zero. -/
def wholeDigits : List Char → List Char × List Char
  | '0' :: rest => (['0'], rest)
  | s => (s.takeWhile Char.isDigit, s.dropWhile Char.isDigit)

/-- The digits after a point, if a point and a digit follow. -/
def fractionDigits : List Char → List Char × List Char
  | '.' :: rest =>
    let ds := rest.takeWhile Char.isDigit
    if ds.isEmpty then ([], '.' :: rest) else (ds, rest.dropWhile Char.isDigit)
  | s => ([], s)

/-- The power of ten, if a mark and at least one digit follow. -/
def powerOfTen : List Char → Option Int × List Char
  | [] => (none, [])
  | c :: rest =>
    if c == 'e' || c == 'E' then
      let (negative, body) := Text.takeSign rest
      let (ds, after) := Text.spanDigits body
      if ds.isEmpty then (none, c :: rest)
      else
        let n : Int := Text.digitsValue ds
        (some (if negative then -n else n), after)
    else (none, c :: rest)

/-- The value of a list of ASCII digits. -/
def valueOf (digits : List Char) : Nat := Text.digitsValue (digits.map fun c => c.toNat - 48)

/-- Reads a number. -/
def readNumber (s : List Char) : Except Failure (Value × List Char) :=
  let (negative, body) := match s with
    | '-' :: rest => (true, rest)
    | _ => (false, s)
  let (whole, rest) := wholeDigits body
  if whole.isEmpty then fail .expectedValue s
  else
    let (part, rest) := fractionDigits rest
    let (power, rest) := powerOfTen rest
    if part.isEmpty && power.isNone then
      if whole.length > Text.maxDigits then .error (.tooManyDigits whole.length)
      else
        let n : Int := valueOf whole
        .ok (.int (if negative then -n else n), rest)
    else
      let exponent := power.getD 0 - (part.length : Int)
      .ok (.double (Double.ofScientific negative (valueOf (whole ++ part)) exponent), rest)

/-- Takes a word off the front. -/
def takeWord? : List Char → List Char → Option (List Char)
  | [], rest => some rest
  | _ :: _, [] => none
  | w :: ws, c :: rest => if w = c then takeWord? ws rest else none

/-- The words that are values. -/
def wordValues : List (List Char × Value) :=
  [("null".toList, .null), ("true".toList, .bool true), ("false".toList, .bool false),
   ("NaN".toList, .double .nan), ("Infinity".toList, .double (.infinite false)),
   ("-Infinity".toList, .double (.infinite true))]

/-- Reads a value that is neither a text nor a container. -/
def readPlain (s : List Char) : Except Failure (Value × List Char) :=
  match wordValues.findSome? fun (w, v) => (takeWord? w s).map (v, ·) with
  | some found => .ok found
  | none => readNumber s

mutual

/-- Reads a value. The first argument bounds the number of nested steps. -/
def readValue : Nat → List Char → Except Failure (Value × List Char)
  | 0, s => fail .expectedValue s
  | fuel + 1, s =>
    match s with
    | '"' :: rest => (readText s rest).map fun (cs, r) => (.text (String.ofList cs), r)
    | '\x7b' :: rest =>
      match skipSpace rest with
      | '\x7d' :: after => .ok (.object [], after)
      | inner => (readMembers fuel [] inner).map fun (ms, r) => (.object ms, r)
    | '[' :: rest =>
      match skipSpace rest with
      | ']' :: after => .ok (.list [], after)
      | inner => (readItems fuel inner).map fun (vs, r) => (.list vs, r)
    | _ => readPlain s

/-- Reads the members of an object up to its closing brace, adding to those in `found`. -/
def readMembers : Nat → List (String × Value) → List Char →
    Except Failure (List (String × Value) × List Char)
  | 0, _, s => fail .expectedName s
  | fuel + 1, found, s =>
    match s with
    | '"' :: rest => do
      let (name, rest) ← readText s rest
      match skipSpace rest with
      | ':' :: rest =>
        let (v, rest) ← readValue fuel (skipSpace rest)
        let found := Assoc.set (String.ofList name) v found
        match skipSpace rest with
        | '\x7d' :: rest => return (found, rest)
        | ',' :: rest => readMembers fuel found (skipSpace rest)
        | rest => fail .expectedComma rest
      | rest => fail .expectedColon rest
    | _ => fail .expectedName s

/-- Reads the items of a list up to its closing bracket. -/
def readItems : Nat → List Char → Except Failure (List Value × List Char)
  | 0, s => fail .expectedValue s
  | fuel + 1, s => do
    let (v, rest) ← readValue fuel s
    match skipSpace rest with
    | ']' :: rest => return ([v], rest)
    | ',' :: rest =>
      let (vs, rest) ← readItems fuel (skipSpace rest)
      return (v :: vs, rest)
    | rest => fail .expectedComma rest

end

/-- Reads one document from a whole text. -/
def readWhole (s : List Char) : Except Failure Value := do
  match s with
  | c :: _ =>
    if c.toNat = 0xFEFF then fail .byteOrderMark s
  | [] => pure ()
  let (v, rest) ← readValue (2 * s.length + 2) (skipSpace s)
  match skipSpace rest with
  | [] => return v
  | rest => fail .extraData rest

/-- A place in a text: line and column count from one, the offset from zero. -/
structure Place where
  line : Nat
  column : Nat
  offset : Nat
  deriving DecidableEq

/-- The place after the characters of `before`. -/
def place (before : List Char) : Place where
  line := before.count '\n' + 1
  column := (before.reverse.takeWhile (· != '\n')).length + 1
  offset := before.length

/-- Why a text is not a document. -/
inductive ReadError where
  | malformed (what : Complaint) (location : Place)
  | tooManyDigits (digits : Nat)
  deriving DecidableEq

/-- The document that a text holds. -/
def read (s : String) : Except ReadError Value :=
  match readWhole s.toList with
  | .ok v => .ok v
  | .error (.complaint what left) =>
    let cs := s.toList
    .error (.malformed what (place (cs.take (cs.length - left))))
  | .error (.tooManyDigits n) => .error (.tooManyDigits n)

end SelectorCatalog.Json
