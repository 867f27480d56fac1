import SelectorCatalog.Fault

/-!
# Values as keys

Numbers of syntax nodes and keys of settings are compared by what they denote: whole numbers are the
same however they are written, and truth values are one and zero.
-/

set_option autoImplicit false

namespace SelectorCatalog

/-- What a value is known by. -/
inductive ValueKey where
  | null
  | whole (n : Int)
  | fraction (d : Double)
  | text (s : String)
  deriving DecidableEq

namespace ValueKey

/-- The key of a truth value. -/
def ofBool (b : Bool) : ValueKey := .whole (if b then 1 else 0)

/-- The key of a double. -/
def ofDouble (d : Double) : ValueKey :=
  match d.toInt? with
  | some n => .whole n
  | none => .fraction d

end ValueKey

/-- What a value is known by; a list or an object cannot be a key. -/
def Value.key : Value → Except Fault ValueKey
  | null => .ok .null
  | bool b => .ok (.ofBool b)
  | int n => .ok (.whole n)
  | double d => .ok (.ofDouble d)
  | text s => .ok (.text s)
  | list _ | object _ => .error .wrongType

end SelectorCatalog
