/-!
# UTF-8

Source positions count bytes, files hold bytes, and texts are sequences of characters. `decodeUnits`
reads bytes from left to right as whole characters and maximal ill-formed parts; the strict reading
refuses an ill-formed part and the lenient one shows it as U+FFFD.
-/

set_option autoImplicit false

namespace SelectorCatalog.Text

/-- The UTF-8 bytes of a text. -/
def utf8 (s : List Char) : List UInt8 := s.flatMap String.utf8EncodeChar

@[simp] theorem utf8_append (a b : List Char) : utf8 (a ++ b) = utf8 a ++ utf8 b := by
  simp [utf8]

/-- Whether a byte continues a character. -/
def isContinuation (b : UInt8) : Bool := 0x80 ≤ b && b ≤ 0xBF

/-- What a byte that starts a longer character promises: how many bytes follow, and the interval
that the first of them lies in. Overlong forms, surrogates and numbers past U+10FFFF are kept out by
it. -/
def leadByte? (b : UInt8) : Option (Nat × UInt8 × UInt8) :=
  if 0xC2 ≤ b && b ≤ 0xDF then some (1, 0x80, 0xBF)
  else if b == 0xE0 then some (2, 0xA0, 0xBF)
  else if b == 0xED then some (2, 0x80, 0x9F)
  else if 0xE1 ≤ b && b ≤ 0xEF then some (2, 0x80, 0xBF)
  else if b == 0xF0 then some (3, 0x90, 0xBF)
  else if b == 0xF4 then some (3, 0x80, 0x8F)
  else if 0xF1 ≤ b && b ≤ 0xF3 then some (3, 0x80, 0xBF)
  else none

/-- The six payload bits of a continuation byte. -/
def payload (b : UInt8) : Nat := b.toNat % 64

/-- The characters (`some`) and the maximal ill-formed parts (`none`) of a byte sequence, in
order. -/
def decodeUnits : List UInt8 → List (Option Char)
  | [] => []
  | b0 :: r0 =>
    if b0 < 0x80 then some (Char.ofNat b0.toNat) :: decodeUnits r0
    else
      match leadByte? b0 with
      | none => none :: decodeUnits r0
      | some (count, low, high) =>
        match r0 with
        | [] => [none]
        | b1 :: r1 =>
          if !(low ≤ b1 && b1 ≤ high) then none :: decodeUnits (b1 :: r1)
          else if count == 1 then
            some (Char.ofNat (b0.toNat % 32 * 64 + payload b1)) :: decodeUnits r1
          else
            match r1 with
            | [] => [none]
            | b2 :: r2 =>
              if !isContinuation b2 then none :: decodeUnits (b2 :: r2)
              else if count == 2 then
                some (Char.ofNat (b0.toNat % 16 * 4096 + payload b1 * 64 + payload b2))
                  :: decodeUnits r2
              else
                match r2 with
                | [] => [none]
                | b3 :: r3 =>
                  if !isContinuation b3 then none :: decodeUnits (b3 :: r3)
                  else
                    some (Char.ofNat (b0.toNat % 8 * 262144 + payload b1 * 4096 + payload b2 * 64
                      + payload b3)) :: decodeUnits r3
  termination_by s => s.length

/-- The text, if every part of the bytes is well formed. -/
def decode? (bytes : List UInt8) : Option (List Char) := (decodeUnits bytes).mapM id

/-- The text with U+FFFD in place of every ill-formed part. -/
def decodeReplacing (bytes : List UInt8) : List Char :=
  (decodeUnits bytes).map fun u => u.getD (Char.ofNat 0xFFFD)

end SelectorCatalog.Text
