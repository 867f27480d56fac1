/-!
# Lexicographic order

Lists of names or numbers are sorted item by item, and a list comes after those that it continues.
-/

set_option autoImplicit false

namespace SelectorCatalog

variable {α : Type}

/-- Whether a list comes before another one or is equal to it; `before` tells that an item comes
before another one. -/
def lexUpTo [DecidableEq α] (before : α → α → Bool) : List α → List α → Bool
  | [], _ => true
  | _ :: _, [] => false
  | a :: as, b :: bs => before a b || a = b && lexUpTo before as bs

/-- Whether a list of names comes before another one or is equal to it. -/
def namesUpTo (a b : List String) : Bool := lexUpTo (fun x y => decide (x < y)) a b

end SelectorCatalog
