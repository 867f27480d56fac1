import SelectorCatalog.Text.CodePoint
import SelectorCatalog.Text.Hex

/-!
# Tokens of a settings text

A settings text is read as a list of tokens. Indentation opens and closes blocks, and a colon turns
what stands before it on the line into a key, for which a token is put in front of it afterwards.
Anchors, tags and block literals have no place in settings and are refused.
-/

set_option autoImplicit false

namespace SelectorCatalog.Config

/-- A token. -/
inductive Token where
  /-- A text, and whether it stands without quotes. -/
  | scalar (content : String) (plain : Bool)
  | key
  | value
  | blockEntry
  | blockSequence
  | blockMapping
  | blockEnd
  | sequenceStart
  | sequenceEnd
  | mappingStart
  | mappingEnd
  | separator
  | documentStart
  | documentEnd
  | directive
  deriving DecidableEq, Inhabited

/-! ## Characters -/

/-- Whether a character ends a line. -/
def isBreak (c : Char) : Bool := c == '\n' || Text.inRanges [(0x85, 0x85), (0x2028, 0x2029)] c.toNat

/-- Whether a character may occur in a settings text. -/
def isAllowed (c : Char) : Bool :=
  Text.inRanges [(9, 10), (13, 13), (0x20, 0x7E), (0x85, 0x85), (0xA0, 0xD7FF), (0xE000, 0xFFFD),
    (0x10000, 0x10FFFF)] c.toNat

/-- Whether the rest of a text goes on with a blank or a line break, or is empty. -/
def endsWord : List Char → Bool
  | [] => true
  | c :: _ => c == ' ' || c == '\t' || isBreak c

/-- Whether a text starts with a mark, which then ends. -/
def startsMark (mark : String) (s : List Char) : Bool :=
  mark.toList.isPrefixOf s && endsWord (s.drop mark.length)

/-- Whether a text starts with the mark before or after a document. -/
def startsDocumentMark (s : List Char) : Bool := startsMark "---" s || startsMark "..." s

/-- The text that a line break stands for. -/
def breakText (c : Char) : Char := if c.toNat == 0x85 then '\n' else c

/-- What a line break and the empty lines after it stand for: one break is a blank, and of more the
first is dropped. -/
def folded (first : Char) (more : List Char) : List Char :=
  if breakText first != '\n' then breakText first :: more
  else if more.isEmpty then [' '] else more

/-! ## Quoted texts -/

/-- The empty lines that follow a line break inside quotes, and what stands after them. -/
def quotedBreaks : Nat → List Char → Option (List Char × List Char)
  | 0, _ => none
  | fuel + 1, s =>
    if startsDocumentMark s then none
    else
      let s := s.dropWhile fun c => c == ' ' || c == '\t'
      match s with
      | c :: rest =>
        if isBreak c then (quotedBreaks fuel rest).map fun (bs, r) => (breakText c :: bs, r)
        else some ([], s)
      | [] => some ([], [])

/-- The character that a letter after a backslash stands for. -/
def escapedChar? (c : Char) : Option Char :=
  ([('0', 0), ('a', 7), ('b', 8), ('t', 9), ('\t', 9), ('n', 10), ('v', 11), ('f', 12), ('r', 13),
    ('e', 27), (' ', 32), ('"', 34), ('\\', 92), ('/', 47), ('N', 0x85), ('_', 0xA0), ('L', 0x2028),
    ('P', 0x2029)].find? fun e => e.1 == c).map fun e => Char.ofNat e.2

/-- The number of hexadecimal digits after a letter that announces a code point. -/
def codeWidth? (c : Char) : Option Nat :=
  if c == 'x' then some 2 else if c == 'u' then some 4 else if c == 'U' then some 8 else none

/-- The character of hexadecimal digits. -/
def codeChar? (digits : List Char) : Option Char := do
  let values ← digits.mapM Text.hexValue?
  return Char.ofNat (values.foldl (fun n d => 16 * n + d) 0)

/-- What an escape stands for, and what follows it. -/
def escape? (fuel : Nat) : List Char → Option (List Char × List Char)
  | [] => none
  | c :: rest =>
    if isBreak c then quotedBreaks fuel rest
    else match escapedChar? c with
      | some e => some ([e], rest)
      | none => do
        let width ← codeWidth? c
        if rest.length < width then none
        else return ([← codeChar? (rest.take width)], rest.drop width)

/-- The content of a quoted text after its first quote, and what follows its last one. -/
def quotedText (quote : Char) : Nat → List Char → Option (List Char × List Char)
  | 0, _ => none
  | _, [] => none
  | fuel + 1, c :: rest =>
    let goOn (content : List Char) (s : List Char) :=
      (quotedText quote fuel s).map fun (t, r) => (content ++ t, r)
    if c == quote then
      match rest with
      | d :: more => if quote == '\x27' && d == quote then goOn [quote] more else some ([], rest)
      | [] => some ([], [])
    else if quote == '"' && c == '\\' then do
      let (content, s) ← escape? fuel rest
      goOn content s
    else if c == ' ' || c == '\t' || isBreak c then
      let blanks := (c :: rest).takeWhile fun d => d == ' ' || d == '\t'
      match (c :: rest).drop blanks.length with
      | [] => none
      | d :: more =>
        if isBreak d then do
          let (bs, s) ← quotedBreaks (fuel + 1) more
          goOn (folded d bs) s
        else goOn blanks (d :: more)
    else goOn [c] rest

/-! ## Scanning -/

/-- A place that may turn out to hold a key. -/
structure KeyPlace where
  /-- The number of flow collections around it. -/
  flow : Nat
  /-- The number of tokens before it. -/
  tokens : Nat
  /-- The text must go on as a mapping here. -/
  required : Bool
  index : Nat
  line : Nat
  column : Nat

/-- How far a text is read. -/
structure Scan where
  rest : List Char
  index : Nat := 0
  line : Nat := 0
  column : Nat := 0
  tokens : List Token := []
  /-- The number of open flow collections. -/
  flow : Nat := 0
  /-- The column of the block that is open, and those around it. -/
  indent : Int := -1
  outer : List Int := []
  keyAllowed : Bool := true
  places : List KeyPlace := []

namespace Scan

/-- Moves on by one character. -/
def advanceOne (s : Scan) : Scan :=
  match s.rest with
  | [] => s
  | c :: rest =>
    if isBreak c then { s with rest, index := s.index + 1, line := s.line + 1, column := 0 }
    else { s with rest, index := s.index + 1, column := s.column + 1 }

/-- Moves on. -/
def advance (n : Nat) (s : Scan) : Scan := n.repeat advanceOne s

/-- Moves on to a rest of the text. -/
def advanceTo (rest : List Char) (s : Scan) : Scan := s.advance (s.rest.length - rest.length)

/-- Adds a token. -/
def emit (t : Token) (s : Scan) : Scan := { s with tokens := s.tokens ++ [t] }

/-- Puts a token at an earlier place. -/
def insertAt (n : Nat) (t : Token) (s : Scan) : Scan :=
  { s with tokens := s.tokens.take n ++ t :: s.tokens.drop n }

/-- Moves past blanks, comments and line breaks. -/
def skip : Nat → Scan → Scan
  | 0, s => s
  | fuel + 1, s =>
    match s.rest with
    | [] => s
    | c :: _ =>
      if c == ' ' then skip fuel (s.advance 1)
      else if c == '#' then skip fuel (s.advance (s.rest.takeWhile fun d => !isBreak d).length)
      else if isBreak c then
        skip fuel { s.advance 1 with keyAllowed := s.keyAllowed || s.flow == 0 }
      else s

/-- Whether a place can no longer hold a key: keys stand on one line and are not long. -/
def isPast (s : Scan) (p : KeyPlace) : Bool := p.line != s.line || s.index - p.index > 1024

/-- Forgets the places that can no longer hold a key. -/
def dropPast (s : Scan) : Option Scan :=
  if s.places.any fun p => s.isPast p && p.required then none
  else some { s with places := s.places.filter fun p => !s.isPast p }

/-- Forgets the place in the innermost collection. -/
def dropPlace (s : Scan) : Option Scan :=
  if s.places.any fun p => p.flow == s.flow && p.required then none
  else some { s with places := s.places.filter fun p => p.flow != s.flow }

/-- Remembers that a key may stand here. -/
def savePlace (s : Scan) : Option Scan :=
  if s.keyAllowed then do
    let s ← s.dropPlace
    let required := s.flow == 0 && s.indent == s.column
    return { s with places := ⟨s.flow, s.tokens.length, required, s.index, s.line,
      s.column⟩ :: s.places }
  else some s

/-- Closes the blocks that are indented by more than a column. -/
def closeBlocks (column : Int) : Int → List Int → Scan → Scan
  | indent, [], s => { s with indent, outer := [] }
  | indent, o :: outer, s =>
    if indent > column then closeBlocks column o outer (s.emit .blockEnd)
    else { s with indent, outer := o :: outer }

/-- Closes the blocks that end before a column; inside flow collections indentation does not
count. -/
def unwind (column : Int) (s : Scan) : Scan :=
  if s.flow == 0 then closeBlocks column s.indent s.outer s else s

/-- Whether a column opens a block, and the scan in which it is open. -/
def openBlock (column : Nat) (s : Scan) : Bool × Scan :=
  if s.indent < column then (true, { s with indent := column, outer := s.indent :: s.outer })
  else (false, s)

/-- Opens a block here with a token, where a key is allowed. -/
def openHere (t : Token) (s : Scan) : Option Scan :=
  if s.flow != 0 then some s
  else if !s.keyAllowed then none
  else
    let (isNew, s) := s.openBlock s.column
    some (if isNew then s.emit t else s)

/-- The first word of a plain text: it ends before a blank, a colon that makes a key, and inside
flow collections before their marks. -/
def plainWord (inFlow : Bool) : List Char → List Char
  | [] => []
  | c :: rest =>
    if c == ' ' || c == '\t' || isBreak c then []
    else if c == ':' &&
      (endsWord rest || inFlow && rest.head?.any ",[]\x7b\x7d".toList.contains) then []
    else if inFlow && ",?[]\x7b\x7d".toList.contains c then []
    else c :: plainWord inFlow rest

/-- The line breaks after a first one, and the scan after them and the blanks before the next word;
`none` in place of the breaks if a document ends there. -/
def plainBreaks : Nat → List Char → Scan → Option (List Char) × Scan
  | 0, breaks, s => (some breaks, s)
  | fuel + 1, breaks, s =>
    match s.rest with
    | c :: _ =>
      if c == ' ' then plainBreaks fuel breaks (s.advance 1)
      else if isBreak c then
        let s := s.advance 1
        if startsDocumentMark s.rest then (none, s)
        else plainBreaks fuel (breaks ++ [breakText c]) s
      else (some breaks, s)
    | [] => (some breaks, s)

/-- What stands between two words of a plain text, and the scan after it. -/
def plainSpaces (s : Scan) : List Char × Scan :=
  let blanks := s.rest.takeWhile (· == ' ')
  let s := s.advance blanks.length
  match s.rest with
  | c :: _ =>
    if isBreak c then
      let s := { s.advance 1 with keyAllowed := true }
      if startsDocumentMark s.rest then ([], s)
      else match plainBreaks s.rest.length [] s with
        | (some breaks, s) => (folded c breaks, s)
        | (none, s) => ([], s)
    else (blanks, s)
  | [] => (blanks, s)

/-- The words of a plain text after some content and what stands between it and the next word. -/
def plainText : Nat → List Char → List Char → Scan → List Char × Scan
  | 0, content, _, s => (content, s)
  | fuel + 1, content, spaces, s =>
    let word := if s.rest.head? = some '#' then [] else plainWord (s.flow != 0) s.rest
    if word.isEmpty then (content, s)
    else
      let content := content ++ spaces ++ word
      let (spaces, s) := ({ s with keyAllowed := false }.advance word.length).plainSpaces
      if spaces.isEmpty || s.rest.head? = some '#' || s.flow == 0 && s.column < s.indent + 1 then
        (content, s)
      else plainText fuel content spaces s

/-- Whether a plain text can start here. -/
def startsPlain (inFlow : Bool) : List Char → Bool
  | [] => false
  | c :: rest =>
    !(isBreak c || " \t-?:,[]\x7b\x7d#&*!|>\x27\"%@\x60".toList.contains c)
      || !endsWord rest && (c == '-' || !inFlow && (c == '?' || c == ':'))

/-- A mark between documents. -/
def mark (t : Token) (width : Nat) (s : Scan) : Option Scan := do
  let s ← (s.unwind (-1)).dropPlace
  return { s with keyAllowed := false }.emit t |>.advance width

/-- Whether a directive has a name. -/
def isDirective (line : List Char) : Bool :=
  let name := line.takeWhile fun c => c.isAlphanum || c == '-' || c == '_'
  !name.isEmpty && endsWord (line.drop name.length)

/-- The start of a flow collection. -/
def openFlow (t : Token) (s : Scan) : Option Scan := do
  let s ← s.savePlace
  return { s with flow := s.flow + 1, keyAllowed := true }.emit t |>.advance 1

/-- The end of a flow collection. -/
def closeFlow (t : Token) (s : Scan) : Option Scan := do
  let s ← s.dropPlace
  if s.flow == 0 then none
  else return { s with flow := s.flow - 1, keyAllowed := false }.emit t |>.advance 1

/-- The colon after a key. -/
def colon (s : Scan) : Option Scan :=
  match s.places.find? fun p => p.flow == s.flow with
  | some p =>
    let s := { s with places := s.places.filter fun q => q.flow != s.flow }.insertAt p.tokens .key
    let s := if s.flow != 0 then s else
      let (isNew, s) := s.openBlock p.column
      if isNew then s.insertAt p.tokens .blockMapping else s
    some ({ s with keyAllowed := false }.emit .value |>.advance 1)
  | none => do
    let s ← s.openHere .blockMapping
    let s ← { s with keyAllowed := s.flow == 0 }.dropPlace
    return s.emit .value |>.advance 1

/-- A text between quotes. -/
def quotedScalar (quote : Char) (s : Scan) : Option Scan := do
  let s ← s.savePlace
  let (content, rest) ← quotedText quote s.rest.length (s.rest.drop 1)
  return ({ s with keyAllowed := false }.emit (.scalar (String.ofList content) false)).advanceTo
    rest

/-- A text without quotes. -/
def plainScalar (s : Scan) : Option Scan := do
  let s ← s.savePlace
  let (content, s) := plainText s.rest.length [] [] { s with keyAllowed := false }
  return s.emit (.scalar (String.ofList content) true)

/-- The token that starts with a character. -/
def token (c : Char) (rest : List Char) (s : Scan) : Option Scan :=
  if c == '%' && s.column == 0 then
    let line := rest.takeWhile fun d => !isBreak d
    if isDirective line then s.mark .directive (line.length + 1) else none
  else if s.column == 0 && startsMark "---" s.rest then s.mark .documentStart 3
  else if s.column == 0 && startsMark "..." s.rest then s.mark .documentEnd 3
  else if c == '[' then s.openFlow .sequenceStart
  else if c == '\x7b' then s.openFlow .mappingStart
  else if c == ']' then s.closeFlow .sequenceEnd
  else if c == '\x7d' then s.closeFlow .mappingEnd
  else if c == ',' then do
    let s ← { s with keyAllowed := true }.dropPlace
    return s.emit .separator |>.advance 1
  else if c == '-' && endsWord rest then do
    let s ← s.openHere .blockSequence
    let s ← { s with keyAllowed := true }.dropPlace
    return s.emit .blockEntry |>.advance 1
  else if c == '?' && (s.flow != 0 || endsWord rest) then do
    let s ← s.openHere .blockMapping
    let s ← { s with keyAllowed := s.flow == 0 }.dropPlace
    return s.emit .key |>.advance 1
  else if c == ':' && (s.flow != 0 || endsWord rest) then s.colon
  else if c == '"' || c == '\x27' then s.quotedScalar c
  else if startsPlain (s.flow != 0) s.rest then s.plainScalar
  else none

/-- The tokens up to the end of the text; the first argument bounds their number. -/
def run : Nat → Scan → Option (List Token)
  | 0, _ => none
  | fuel + 1, s => do
    let s ← (s.skip (s.rest.length + 1)).dropPast
    let s := s.unwind s.column
    match s.rest with
    | [] =>
      let s ← (s.unwind (-1)).dropPlace
      return s.tokens
    | c :: rest => run fuel (← s.token c rest)

end Scan

/-- The tokens of a settings text; a mark of byte order at its start is skipped. -/
def tokens? (text : List Char) : Option (List Token) :=
  let body := match text with
    | c :: rest => if c.toNat == 0xFEFF then rest else c :: rest
    | [] => []
  if text.all isAllowed then Scan.run (body.length + 2) { rest := body } else none

end SelectorCatalog.Config
