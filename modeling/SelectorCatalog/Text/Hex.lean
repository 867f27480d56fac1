/-!
# Hexadecimal digits

Digests, selectors and escapes write numbers in lower-case hexadecimal of a fixed width.
-/

set_option autoImplicit false

namespace SelectorCatalog.Text

/-- The lower-case hexadecimal digit of a number below sixteen. -/
def hexDigit (n : Nat) : Char :=
  if n < 10 then Char.ofNat (48 + n) else Char.ofNat (87 + n)

/-- The last `width` hexadecimal digits of a number. -/
def hex : Nat → Nat → List Char
  | 0, _ => []
  | width + 1, n => hex width (n / 16) ++ [hexDigit (n % 16)]

@[simp] theorem length_hex (width n : Nat) : (hex width n).length = width := by
  induction width generalizing n with
  | zero => rfl
  | succ w ih => simp [hex, ih]

theorem exists_of_mem_hex {width n : Nat} {c : Char} (h : c ∈ hex width n) :
    ∃ d, d < 16 ∧ c = hexDigit d := by
  induction width generalizing n with
  | zero => cases h
  | succ w ih =>
    rw [hex, List.mem_append, List.mem_singleton] at h
    rcases h with early | last
    · exact ih early
    · exact ⟨n % 16, Nat.mod_lt _ (by decide), last⟩

/-- The value of a hexadecimal digit in either case. -/
def hexValue? (c : Char) : Option Nat :=
  if c.isDigit then some (c.toNat - 48)
  else if 'a' ≤ c && c ≤ 'f' then some (c.toNat - 87)
  else if 'A' ≤ c && c ≤ 'F' then some (c.toNat - 55)
  else none

/-- The bytes of a digest as hexadecimal text. -/
def hexBytes (bytes : List UInt8) : String :=
  String.ofList (bytes.flatMap fun b => hex 2 b.toNat)

theorem length_hexBytes (bytes : List UInt8) : (hexBytes bytes).length = 2 * bytes.length := by
  induction bytes with
  | nil => simp [hexBytes]
  | cons b r ih =>
    simp only [hexBytes, String.length_ofList, List.flatMap_cons, List.length_append, length_hex,
      List.length_cons] at ih ⊢
    omega

theorem exists_of_mem_hexBytes {bytes : List UInt8} {c : Char} (h : c ∈ (hexBytes bytes).toList) :
    ∃ d, d < 16 ∧ c = hexDigit d := by
  rw [hexBytes, String.toList_ofList] at h
  obtain ⟨b, -, digit⟩ := List.mem_flatMap.1 h
  exact exists_of_mem_hex digit

end SelectorCatalog.Text
