import SelectorCatalog.Number.Shortest

/-!
# How a double is written

Documents and messages write a double with the fewest digits that read back, positionally from 1e-4
up to below 1e16 and otherwise with a signed exponent of at least two digits. A time budget is
written with six significant digits at most, and positionally only below 1e6.
-/

set_option autoImplicit false

namespace SelectorCatalog

/-- The decisions of a layout. -/
structure Layout where
  /-- Numbers from `10 ^ positionalTo` on have an exponent. -/
  positionalTo : Int
  /-- A whole number ends in `.0`. -/
  wholeMark : Bool

namespace Layout

/-- The layout of numbers in documents and messages. -/
def document : Layout := ⟨16, true⟩

/-- The layout of a time budget. -/
def budget : Layout := ⟨6, false⟩

/-- Zeros. -/
def zeros (n : Int) : List Char := List.replicate n.toNat '0'

/-- The digits with the point after the first `point` of them. -/
def positional (layout : Layout) (digits : List Char) (point : Int) : List Char :=
  let count : Int := digits.length
  let ending : List Char := if layout.wholeMark then ['.', '0'] else []
  if point ≤ 0 then '0' :: '.' :: zeros (-point) ++ digits
  else if count ≤ point then digits ++ zeros (point - count) ++ ending
  else digits.take point.toNat ++ '.' :: digits.drop point.toNat

/-- The digits with a point after the first one and the power of ten. -/
def scientific (digits : List Char) (power : Int) : List Char :=
  let mantissa := match digits with
    | [] => []
    | [d] => [d]
    | d :: rest => d :: '.' :: rest
  let size := Nat.toDigits 10 power.natAbs
  let padded := if size.length < 2 then '0' :: size else size
  mantissa ++ 'e' :: (if power < 0 then '-' else '+') :: padded

/-- The magnitude of a positive number in a layout. -/
def magnitude (layout : Layout) (d : ScaledDigits) : List Char :=
  let power := d.scale - 1
  if -4 ≤ power && power < layout.positionalTo then layout.positional d.chars d.scale
  else scientific d.chars power

/-- A double whose digits `select` chooses, in a layout. -/
def write (layout : Layout) (select : Nat → Int → ScaledDigits) : Double → String
  | .nan => "nan"
  | .infinite negative => if negative then "-inf" else "inf"
  | .finite negative m e =>
    let body := if m = 0 then layout.positional ['0'] 1 else layout.magnitude (select m e)
    String.ofList (if negative then '-' :: body else body)

end Layout

namespace Double

/-- The text of a double in documents and messages. -/
def render (d : Double) : String := Layout.document.write shortest d

/-- The text of a double as a time budget in seconds. -/
def renderBudget (d : Double) : String := Layout.budget.write (rounded 6) d

theorem render_ne_empty (d : Double) : d.render ≠ "" := by
  have positional (digits : List Char) (point : Int) :
      Layout.document.positional digits point ≠ [] := by
    have marked : Layout.document.wholeMark = true := rfl
    simp only [Layout.positional, marked, if_true]
    repeat' split
    all_goals simp
  have scientific (digits : List Char) (power : Int) : Layout.scientific digits power ≠ [] := by
    simp [Layout.scientific]
  have magnitude (digits : ScaledDigits) : Layout.document.magnitude digits ≠ [] := by
    unfold Layout.magnitude
    dsimp only
    split
    · exact positional _ _
    · exact scientific _ _
  unfold render Layout.write
  repeat' split
  all_goals simp [positional, magnitude]

end Double

end SelectorCatalog
