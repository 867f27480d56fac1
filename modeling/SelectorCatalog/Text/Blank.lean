import SelectorCatalog.Text.CodePoint

/-!
# Blanks and lines

Blanks are the characters that trimming removes and that a content digest ignores. A line ends at
any of the line breaks of plain text; text read from a file has only line feeds.

Main statement: removing blanks leaves none (`blank_not_mem_dropBlanks`).
-/

set_option autoImplicit false

namespace SelectorCatalog.Text

/-- The blank characters by code point. -/
def blankRanges : List (Nat × Nat) :=
  [(9, 13), (28, 32), (133, 133), (160, 160), (5760, 5760), (8192, 8202), (8232, 8233),
   (8239, 8239), (8287, 8287), (12288, 12288)]

/-- Whether a character is blank. -/
def isBlank (c : Char) : Bool := inRanges blankRanges c.toNat

/-- The text without its leading and trailing blanks. -/
def trimList (s : List Char) : List Char :=
  ((s.dropWhile isBlank).reverse.dropWhile isBlank).reverse

/-- The text without its leading and trailing blanks. -/
def trim (s : String) : String := String.ofList (trimList s.toList)

/-- The text without any blank. -/
def dropBlanks (s : String) : String := String.ofList (s.toList.filter fun c => !isBlank c)

theorem blank_not_mem_dropBlanks {s : String} {c : Char} (h : c ∈ (dropBlanks s).toList) :
    isBlank c = false := by
  simp only [dropBlanks, String.toList_ofList, List.mem_filter, Bool.not_eq_true'] at h
  exact h.2

/-- The characters that end a line: line feed, carriage return, the vertical tab and form feed, the
file, group and record separators, next line, and the line and paragraph separators. -/
def isLineBreak (c : Char) : Bool :=
  inRanges [(10, 13), (28, 30), (133, 133), (8232, 8233)] c.toNat

/-- The first line of a text, without its line break; an empty text has no line. -/
def firstLine? (s : String) : Option String :=
  if s.isEmpty then none else some (String.ofList (s.toList.takeWhile fun c => !isLineBreak c))

/-- Writes every carriage return, alone or before a line feed, as one line feed. -/
def lineFeeds : List Char → List Char
  | [] => []
  | '\r' :: '\n' :: rest => '\n' :: lineFeeds rest
  | '\r' :: rest => '\n' :: lineFeeds rest
  | c :: rest => c :: lineFeeds rest

end SelectorCatalog.Text
