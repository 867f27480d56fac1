import SelectorCatalog.Fault

/-!
# Writing documents

Documents are written in ASCII, other characters as escapes of UTF-16 units. On one line, items are
parted by a comma and a space; over several lines each item stands on its own, indented by two
spaces.

A document with an integer of more digits than are written has no text. The writers are for
documents without one (`isWritable`).
-/

set_option autoImplicit false

namespace SelectorCatalog.Json

/-- An escape of one UTF-16 unit. -/
def unitEscape (n : Nat) : List Char := '\\' :: 'u' :: Text.hex 4 n

/-- What is written for a code point outside printable ASCII that has no escape of its own: its
UTF-16 units, which are two past the first 65536. A half of a pair of units is written as itself. -/
def pointEscape (n : Nat) : List Char :=
  if n < 0x10000 then unitEscape n
  else
    let m := n - 0x10000
    unitEscape (0xD800 + m / 0x400) ++ unitEscape (0xDC00 + m % 0x400)

/-- One character of a written text. -/
def writtenChar (c : Char) : List Char :=
  if c == '"' || c == '\\' then ['\\', c]
  else if c == '\n' then ['\\', 'n']
  else if c == '\r' then ['\\', 'r']
  else if c == '\t' then ['\\', 't']
  else if c == '\x08' then ['\\', 'b']
  else if c == '\x0c' then ['\\', 'f']
  else if 32 ≤ c.toNat && c.toNat < 127 then [c]
  else pointEscape c.toNat

/-- A text between quotes. -/
def writeText (s : String) : String :=
  String.ofList ('"' :: s.toList.flatMap writtenChar ++ ['"'])

/-- A number that may be infinite or none. -/
def writeDouble : Double → String
  | .nan => "NaN"
  | .infinite negative => if negative then "-Infinity" else "Infinity"
  | d => d.render

mutual

/-- A document on one line. -/
def write : Value → String
  | .null => "null"
  | .bool b => if b then "true" else "false"
  | .int n => toString n
  | .double d => writeDouble d
  | .text s => writeText s
  | .list items => "[" ++ writeItems items ++ "]"
  | .object members => "\x7b" ++ writeMembers members ++ "\x7d"

/-- Items between commas. -/
def writeItems : List Value → String
  | [] => ""
  | [v] => write v
  | v :: rest => write v ++ ", " ++ writeItems rest

/-- Members between commas. -/
def writeMembers : List (String × Value) → String
  | [] => ""
  | [(k, v)] => writeText k ++ ": " ++ write v
  | (k, v) :: rest => writeText k ++ ": " ++ write v ++ ", " ++ writeMembers rest

end

/-! ## Integers that are too long -/

mutual

/-- Whether no integer of a document has more digits than are written. -/
def isWritable : Value → Bool
  | .int n => decide (Text.IsShort n)
  | .list items => areWritable items
  | .object members => haveWritable members
  | _ => true

/-- Whether items can be written. -/
def areWritable : List Value → Bool
  | [] => true
  | v :: rest => isWritable v && areWritable rest

/-- Whether the values of members can be written. -/
def haveWritable : List (String × Value) → Bool
  | [] => true
  | (_, v) :: rest => isWritable v && haveWritable rest

end

@[simp] theorem isWritable_bool (b : Bool) : isWritable (.bool b) = true := rfl

@[simp] theorem isWritable_int (n : Int) : isWritable (.int n) = decide (Text.IsShort n) := rfl

@[simp] theorem isWritable_text (s : String) : isWritable (.text s) = true := rfl

@[simp] theorem isWritable_list (items : List Value) :
    isWritable (.list items) = items.all isWritable := by
  rw [isWritable]
  induction items with
  | nil => rfl
  | cons v rest ih => rw [areWritable, ih, List.all_cons]

@[simp] theorem isWritable_object (members : List (String × Value)) :
    isWritable (.object members) = members.all fun m => isWritable m.2 := by
  rw [isWritable]
  induction members with
  | nil => rfl
  | cons m rest ih => rw [haveWritable, ih, List.all_cons]

/-! ## Several lines -/

/-- A line feed and the indentation of a level. -/
def newLine (level : Nat) : String := String.ofList ('\n' :: List.replicate (2 * level) ' ')

mutual

/-- A document over several lines, its inner lines indented by more than `level`. -/
def writeIndented (level : Nat) : Value → String
  | .list [] => "[]"
  | .object [] => "\x7b\x7d"
  | .list items => "[" ++ indentedItems (level + 1) items ++ newLine level ++ "]"
  | .object members => "\x7b" ++ indentedMembers (level + 1) members ++ newLine level ++ "\x7d"
  | v => write v

/-- Items on lines of their own. -/
def indentedItems (level : Nat) : List Value → String
  | [] => ""
  | [v] => newLine level ++ writeIndented level v
  | v :: rest => newLine level ++ writeIndented level v ++ "," ++ indentedItems level rest

/-- Members on lines of their own. -/
def indentedMembers (level : Nat) : List (String × Value) → String
  | [] => ""
  | [(k, v)] => newLine level ++ writeText k ++ ": " ++ writeIndented level v
  | (k, v) :: rest =>
    newLine level ++ writeText k ++ ": " ++ writeIndented level v ++ "," ++
      indentedMembers level rest

end

/-- A document over several lines. -/
def writeLines (v : Value) : String := writeIndented 0 v

end SelectorCatalog.Json
