import SelectorCatalog.Text.Numeral

/-!
# Binary floating-point numbers

A double is a signed whole number below 2^53 times a power of two, an infinity, or not a number.
Values are kept exactly, so rounding, comparison and printing are arithmetic on whole numbers.

A finite double is canonical: its significand has 53 bits unless its exponent is the least one.
-/

set_option autoImplicit false

namespace SelectorCatalog

/-- A binary floating-point number of 64 bits, by value. -/
inductive Double where
  | nan
  | infinite (negative : Bool)
  /-- The number `significand * 2 ^ exponent`, with a sign that zero has too. -/
  | finite (negative : Bool) (significand : Nat) (exponent : Int)
  deriving DecidableEq, Inhabited

namespace Double

/-- The exponent of the numbers nearest to zero. -/
def leastExponent : Int := -1074

/-- The exponent of the largest finite numbers. -/
def greatestExponent : Int := 971

/-- The least significand of a number that is not among those nearest to zero. -/
def leastSignificand : Nat := Nat.pow 2 52

/-- Zero with a sign. -/
def zero (negative : Bool) : Double := .finite negative 0 leastExponent

/-- The whole number nearest to `num / den`; a tie goes to the even neighbour. -/
def roundEven (num den : Nat) : Nat :=
  let q := num / den
  let r := num % den
  if 2 * r < den then q
  else if 2 * r > den then q + 1
  else if q % 2 = 0 then q else q + 1

/-- The numerator and denominator of `(num / den) / 2 ^ e`. -/
def scaleDown (num den : Nat) (e : Int) : Nat × Nat :=
  if 0 ≤ e then (num, den * Nat.pow 2 e.toNat) else (num * Nat.pow 2 (-e).toNat, den)

/-- The double nearest to `num / den`; a tie goes to the even significand, and what is past the
greatest finite number is infinite. -/
def ofRatio (negative : Bool) (num den : Nat) : Double :=
  if num = 0 then zero negative
  else
    let guess : Int := (num.log2 : Int) - (den.log2 : Int) - 52
    let (n, d) := scaleDown num den guess
    let fitted : Int := if n < d * leastSignificand then guess - 1 else guess
    let e := max leastExponent fitted
    let (n, d) := scaleDown num den e
    let m := roundEven n d
    let (m, e) := if m = 2 * leastSignificand then (leastSignificand, e + 1) else (m, e)
    if e > greatestExponent then .infinite negative else .finite negative m e

/-- The double nearest to `digits * 10 ^ exponent`. Powers far outside the range of doubles are
decided by the number of digits, so no large power is formed. -/
def ofScientific (negative : Bool) (digits : Nat) (exponent : Int) : Double :=
  if digits = 0 then zero negative
  else
    let magnitude : Int := ((digits.log2 / 3 : Nat) : Int) + exponent
    let smallest : Int := ((digits.log2 / 4 : Nat) : Int) + exponent
    if smallest > 400 then .infinite negative
    else if magnitude < -400 then zero negative
    else if 0 ≤ exponent then ofRatio negative (digits * Nat.pow 10 exponent.toNat) 1
    else ofRatio negative digits (Nat.pow 10 (-exponent).toNat)

/-- The double that a decimal denotes. -/
def ofDecimal : Text.Decimal → Double
  | .notANumber => .nan
  | .infinity negative => .infinite negative
  | .number negative digits exponent => ofScientific negative digits exponent

/-- The double nearest to a whole number, `none` if that is past the greatest finite number. -/
def ofInt? (n : Int) : Option Double :=
  match ofRatio (decide (n < 0)) n.natAbs 1 with
  | .infinite _ => none
  | d => some d

/-- The magnitude of a finite number as a quotient of whole numbers. -/
def ratio (significand : Nat) (exponent : Int) : Nat × Nat :=
  if 0 ≤ exponent then (significand * Nat.pow 2 exponent.toNat, 1)
  else (significand, Nat.pow 2 (-exponent).toNat)

/-- The whole part of a finite number's magnitude. -/
def wholePart (significand : Nat) (exponent : Int) : Nat :=
  let (num, den) := ratio significand exponent
  num / den

/-- Why a double has no whole part. -/
inductive WholeFault where
  | notANumber
  | infinite
  deriving DecidableEq

/-- The number without its fraction. -/
def truncate : Double → Except WholeFault Int
  | .nan => .error .notANumber
  | .infinite _ => .error .infinite
  | .finite negative m e =>
    let n : Int := wholePart m e
    .ok (if negative then -n else n)

/-- Whether the number is zero, of either sign. -/
def isZero : Double → Bool
  | .finite _ m _ => m == 0
  | _ => false

/-- Whether the number is at most zero; not so for what is not a number. -/
def nonPositive : Double → Bool
  | .nan => false
  | .infinite negative => negative
  | .finite negative m _ => negative || m == 0

/-- The whole number that a double equals, if there is one. -/
def toInt? : Double → Option Int
  | .finite negative m e =>
    let (num, den) := ratio m e
    let n : Int := wholePart m e
    if num % den = 0 then some (if negative then -n else n) else none
  | _ => none

/-- The magnitude of a number that is finite. -/
def magnitude? : Double → Option (Nat × Nat)
  | .finite _ m e => some (ratio m e)
  | _ => none

/-- The sum of two magnitudes; too great a one is infinite. -/
def addMagnitude (a b : Double) : Double :=
  match a.magnitude?, b.magnitude? with
  | some (m, d), some (n, e) => ofRatio false (m * e + n * d) (d * e)
  | _, _ => .infinite false

/-- A magnitude times a whole number; too great a product is infinite. -/
def timesMagnitude (a : Double) (n : Nat) : Double :=
  match a.magnitude? with
  | some (m, d) => ofRatio false (m * n) d
  | none => .infinite false

/-- The number with the other sign. -/
def negated : Double → Double
  | .nan => .nan
  | .infinite negative => .infinite !negative
  | .finite negative m e => .finite (!negative) m e

end Double

end SelectorCatalog
