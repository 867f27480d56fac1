import SelectorCatalog.Assoc
import SelectorCatalog.Number.Layout
import SelectorCatalog.Text.Quoted

/-!
# Documents

A `Value` is a JSON document: metadata of a contract, an ABI, a syntax tree or a compiler's answer.
The members of an object keep their order, and no two of them have the same name in a document that
was read.

`Value.display` is the text of a value in a message or where a text was expected, and `Value.quoted`
is the form that it takes inside a list or an object.
-/

set_option autoImplicit false

namespace SelectorCatalog

/-- A document. -/
inductive Value where
  | null
  | bool (b : Bool)
  | int (n : Int)
  | double (d : Double)
  | text (s : String)
  | list (items : List Value)
  | object (members : List (String × Value))
  deriving Inhabited

namespace Value

/-- Whether a value counts as given: null, false, zero and what is empty do not. -/
def isGiven : Value → Bool
  | null => false
  | bool b => b
  | int n => n != 0
  | double d => !d.isZero
  | text s => !s.isEmpty
  | list items => !items.isEmpty
  | object members => !members.isEmpty

/-- The value, or another one if it does not count as given. -/
def orElse (v other : Value) : Value := if v.isGiven then v else other

/-- A text or null. -/
def ofText? : Option String → Value
  | some s => text s
  | none => null

mutual

/-- The form of a value inside a list or an object: texts are quoted. -/
def quoted : Value → String
  | null => "None"
  | bool b => if b then "True" else "False"
  | int n => toString n
  | double d => d.render
  | text s => Text.quoted s
  | list items => "[" ++ quotedItems items ++ "]"
  | object members => "\x7b" ++ quotedMembers members ++ "\x7d"

/-- List items between commas. -/
def quotedItems : List Value → String
  | [] => ""
  | [v] => quoted v
  | v :: rest => quoted v ++ ", " ++ quotedItems rest

/-- Members between commas, each a quoted name and a value. -/
def quotedMembers : List (String × Value) → String
  | [] => ""
  | [(k, v)] => Text.quoted k ++ ": " ++ quoted v
  | (k, v) :: rest => Text.quoted k ++ ": " ++ quoted v ++ ", " ++ quotedMembers rest

end

/-- The text of a value: a text stands for itself. -/
def display : Value → String
  | text s => s
  | v => quoted v

@[simp] theorem display_text (s : String) : display (text s) = s := rfl

theorem toString_int_ne_empty (n : Int) : toString n ≠ "" := by
  rw [Int.toString_eq_repr, Int.repr_eq_if]
  split
  · intro empty
    simpa using congrArg String.toList empty
  · simp

theorem display_ne_empty {v : Value} (given : v.isGiven = true) : v.display ≠ "" := by
  cases v with
  | null => cases given
  | bool b =>
    cases given
    decide
  | int n =>
    rw [display, quoted]
    · exact toString_int_ne_empty n
    · simp
  | double d =>
    rw [display, quoted]
    · exact d.render_ne_empty
    · simp
  | text s => simpa [isGiven] using given
  | list items => simp [display, quoted]
  | object members => simp [display, quoted]

end Value

end SelectorCatalog
