/-!
# Base64

Files whose bytes are no text are given as base64: four characters for three bytes, padded at the
end with equals signs.
-/

set_option autoImplicit false

namespace SelectorCatalog.Text

/-- The value of a base64 character. -/
def base64Value? (c : Char) : Option Nat :=
  if 'A' ≤ c && c ≤ 'Z' then some (c.toNat - 65)
  else if 'a' ≤ c && c ≤ 'z' then some (c.toNat - 71)
  else if c.isDigit then some (c.toNat + 4)
  else if c == '+' then some 62
  else if c == '/' then some 63
  else none

/-- The bytes of groups of four values; a shorter last group gives fewer bytes. -/
def base64Groups : List Nat → List UInt8
  | a :: b :: c :: d :: rest =>
    UInt8.ofNat (4 * a + b / 16) :: UInt8.ofNat (16 * (b % 16) + c / 4)
      :: UInt8.ofNat (64 * (c % 4) + d) :: base64Groups rest
  | [a, b, c] => [UInt8.ofNat (4 * a + b / 16), UInt8.ofNat (16 * (b % 16) + c / 4)]
  | [a, b] => [UInt8.ofNat (4 * a + b / 16)]
  | _ => []

/-- The bytes that a base64 text stands for; characters that are not of base64 are skipped. -/
def base64Bytes (s : String) : List UInt8 := base64Groups (s.toList.filterMap base64Value?)

end SelectorCatalog.Text
