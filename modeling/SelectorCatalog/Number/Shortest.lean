import SelectorCatalog.Number.Double

/-!
# Decimal digits of a double

Two choices of digits: the fewest that read back as the same double, and a fixed number of digits
rounded to nearest. Both are found with whole numbers only.
-/

set_option autoImplicit false

namespace SelectorCatalog

/-- A positive decimal `digits * 10 ^ exponent`. -/
structure ScaledDigits where
  digits : Nat
  exponent : Int
  deriving DecidableEq

namespace ScaledDigits

/-- The decimal digits, most significant first. -/
def chars (d : ScaledDigits) : List Char := Nat.toDigits 10 d.digits

/-- The power of ten that the number is below and a tenth of which it reaches. -/
def scale (d : ScaledDigits) : Int := (d.chars.length : Int) + d.exponent

/-- Moves trailing zeros of the digits into the exponent, at most `fuel` of them. -/
def strip : Nat → ScaledDigits → ScaledDigits
  | 0, d => d
  | fuel + 1, d =>
    if d.digits ≠ 0 && d.digits % 10 == 0 then strip fuel ⟨d.digits / 10, d.exponent + 1⟩ else d

end ScaledDigits

namespace Double

/-- `num / den` over `10 ^ k` as a quotient of whole numbers. -/
def overPower (num den : Nat) (k : Int) : Nat × Nat :=
  if 0 ≤ k then (num, den * Nat.pow 10 k.toNat) else (num * Nat.pow 10 (-k).toNat, den)

/-- The least `k` with `num / den < 10 ^ k`, searched upward from a lower bound. -/
def scaleFrom (num den : Nat) : Nat → Int → Int
  | 0, k => k
  | fuel + 1, k =>
    let (n, d) := overPower num den k
    if n < d then k else scaleFrom num den fuel (k + 1)

/-- The least `k` with `num / den < 10 ^ k`. -/
def decimalScale (num den : Nat) : Int :=
  let bits : Int := (num.log2 : Int) - (den.log2 : Int)
  scaleFrom num den 6 (Int.fdiv ((bits - 1) * 30103) 100000 - 1)

/-- Whether `digits * 10 ^ k` reads back as the positive finite double `m * 2 ^ e`: it lies between
the midpoints to the two neighbouring doubles, the midpoints themselves counted iff `m` is even. -/
def readsBack (m : Nat) (e : Int) (digits : Nat) (k : Int) : Bool :=
  let narrow := m == leastSignificand && e > leastExponent
  -- All in units of a quarter of the last place: the value is `4 * m`.
  let low := if narrow then 4 * m - 1 else 4 * m - 2
  let high := 4 * m + 2
  let (unitNum, unitDen) := ratio 1 (e - 2)
  let (num, den) := if 0 ≤ k then (digits * Nat.pow 10 k.toNat, 1)
    else (digits, Nat.pow 10 (-k).toNat)
  let left := num * unitDen
  let right := den * unitNum
  if m % 2 == 0 then low * right ≤ left && left ≤ high * right
  else low * right < left && left < high * right

/-- The first of the grids with `places`, `places + 1`, … digits that holds a decimal reading
back. -/
def searchDigits (m : Nat) (e : Int) (num den : Nat) (scale : Int) : Nat → Nat → ScaledDigits
  | 0, places =>
    let k := scale - (places : Int)
    let (n, d) := overPower num den k
    ⟨roundEven n d, k⟩
  | fuel + 1, places =>
    let k := scale - (places : Int)
    let (n, d) := overPower num den k
    let below := n / d
    let lowHit := readsBack m e below k
    let highHit := readsBack m e (below + 1) k
    if lowHit && highHit then
      -- Both neighbours read back: the nearer one, and the even one of two equally near.
      ⟨roundEven n d, k⟩
    else if lowHit then ⟨below, k⟩
    else if highHit then ⟨below + 1, k⟩
    else searchDigits m e num den scale fuel (places + 1)

/-- The fewest digits that read back as the positive finite double `m * 2 ^ e`, the nearest of
those. -/
def shortest (m : Nat) (e : Int) : ScaledDigits :=
  let (num, den) := ratio m e
  (searchDigits m e num den (decimalScale num den) 17 1).strip 20

/-- The positive finite double `m * 2 ^ e` rounded to `places` digits, ties to even. -/
def rounded (places : Nat) (m : Nat) (e : Int) : ScaledDigits :=
  let (num, den) := ratio m e
  let k := decimalScale num den - (places : Int)
  let (n, d) := overPower num den k
  (ScaledDigits.mk (roundEven n d) k).strip (places + 1)

end Double

end SelectorCatalog
