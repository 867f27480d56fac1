import SelectorCatalog.Text.Utf8

/-!
# Texts as bytes

The strict reading of bytes gives a text exactly if the bytes are those of the text
(`Text.decode?_eq_some_iff`): nothing that is written is refused, and nothing else is read.
-/

set_option autoImplicit false

namespace SelectorCatalog.Text

/-! ## Bytes of longer characters

A character past the first 128 takes a leading byte and continuation bytes of six bits each. -/

theorem leadByte?_two :
    ∀ k, k < 32 → 2 ≤ k → leadByte? (UInt8.ofNat (k + 192)) = some (1, 0x80, 0xBF) := by decide

theorem leadByte?_three : ∀ k, k < 16 → leadByte? (UInt8.ofNat (k + 224)) =
    some (2, if k = 0 then 0xA0 else 0x80, if k = 13 then 0x9F else 0xBF) := by
  decide

theorem leadByte?_four : ∀ k, k < 5 → leadByte? (UInt8.ofNat (k + 240)) =
    some (3, if k = 0 then 0x90 else 0x80, if k = 4 then 0x8F else 0xBF) := by
  decide

theorem isContinuation_six :
    ∀ k, k < 64 → isContinuation (UInt8.ofNat (k + 128)) = true := by decide

theorem payload_six : ∀ k, k < 64 → payload (UInt8.ofNat (k + 128)) = k := by decide

theorem toNat_byte {n : Nat} (h : n < 256) : (UInt8.ofNat n).toNat = n := by
  rw [UInt8.toNat_ofNat', Nat.mod_eq_of_lt h]

theorem not_plain {k lead : Nat} (high : 128 ≤ lead) (byte : k + lead < 256) :
    ¬UInt8.ofNat (k + lead) < 0x80 := by
  rw [UInt8.lt_iff_toNat_lt, toNat_byte byte]
  exact Nat.not_lt.2 (Nat.le_trans high (Nat.le_add_left lead k))

/-- The first continuation byte lies in the interval that the leading byte promises. -/
theorem inside_iff {low high : UInt8} {k : Nat} (six : k < 64) :
    (low ≤ UInt8.ofNat (k + 128) && UInt8.ofNat (k + 128) ≤ high) = true ↔
      low.toNat ≤ k + 128 ∧ k + 128 ≤ high.toNat := by
  rw [Bool.and_eq_true, decide_eq_true_eq, decide_eq_true_eq, UInt8.le_iff_toNat_le,
    UInt8.le_iff_toNat_le, toNat_byte (by omega)]

/-- The interval is cut below for the first leading byte of a length, and above for one other. -/
theorem inside_promised {low high : UInt8} {k last j : Nat} (six : j < 64)
    (above : k = 0 → low.toNat ≤ j + 128) (below : k = last → j + 128 ≤ high.toNat) :
    ((if k = 0 then low else 0x80) ≤ UInt8.ofNat (j + 128) &&
      UInt8.ofNat (j + 128) ≤ (if k = last then high else 0xBF)) = true := by
  rw [inside_iff six]
  constructor
  · split
    · rename_i zero
      exact above zero
    · exact Nat.le_add_left 128 j
  · split
    · rename_i same
      exact below same
    · exact Nat.le_of_lt_succ (Nat.add_lt_add_right six 128)

/-! ## Reading one character -/

theorem decodeUnits_one {n : Nat} (small : n < 128) (rest : List UInt8) :
    decodeUnits (UInt8.ofNat n :: rest) = some (Char.ofNat n) :: decodeUnits rest := by
  have plain : UInt8.ofNat n < 0x80 := by
    rw [UInt8.lt_iff_toNat_lt, toNat_byte (by omega)]
    exact small
  rw [decodeUnits, if_pos plain, toNat_byte (by omega)]

theorem decodeUnits_two {k j : Nat} (lead : k < 32) (long : 2 ≤ k) (six : j < 64)
    (rest : List UInt8) :
    decodeUnits (UInt8.ofNat (k + 192) :: UInt8.ofNat (j + 128) :: rest) =
      some (Char.ofNat (k * 64 + j)) :: decodeUnits rest := by
  have inside : (0x80 ≤ UInt8.ofNat (j + 128) && UInt8.ofNat (j + 128) ≤ 0xBF) = true :=
    (inside_iff six).2 ⟨Nat.le_add_left 128 j, show j + 128 ≤ 191 by omega⟩
  rw [decodeUnits, if_neg (not_plain (by omega) (by omega)), leadByte?_two k lead long]
  have low : (k + 192) % 32 = k := by omega
  simp only [inside, Bool.not_true, Bool.false_eq_true, if_false, beq_self_eq_true, if_true,
    payload_six j six, toNat_byte (show k + 192 < 256 by omega), low]

theorem decodeUnits_three {k j i : Nat} (lead : k < 16) (six : j < 64) (six' : i < 64)
    (long : k = 0 → 32 ≤ j) (no_surrogate : k = 13 → j < 32) (rest : List UInt8) :
    decodeUnits (UInt8.ofNat (k + 224) :: UInt8.ofNat (j + 128) :: UInt8.ofNat (i + 128) :: rest) =
      some (Char.ofNat (k * 4096 + j * 64 + i)) :: decodeUnits rest := by
  have inside :=
    @inside_promised 0xA0 0x9F k 13 j six (fun zero => Nat.add_le_add_right (long zero) 128)
    fun last => Nat.le_of_lt_succ (Nat.add_lt_add_right (no_surrogate last) 128)
  rw [decodeUnits, if_neg (not_plain (by omega) (by omega)), leadByte?_three k lead]
  have low : (k + 224) % 16 = k := by omega
  simp only [inside, Bool.not_true, Bool.false_eq_true, if_false, payload_six j six,
    payload_six i six', isContinuation_six i six', toNat_byte (show k + 224 < 256 by omega), low]
  rfl

theorem decodeUnits_four {k j i h : Nat} (lead : k < 5) (six : j < 64) (six' : i < 64)
    (six'' : h < 64) (long : k = 0 → 16 ≤ j) (small : k = 4 → j < 16) (rest : List UInt8) :
    decodeUnits (UInt8.ofNat (k + 240) :: UInt8.ofNat (j + 128) :: UInt8.ofNat (i + 128) ::
        UInt8.ofNat (h + 128) :: rest) =
      some (Char.ofNat (k * 262144 + j * 4096 + i * 64 + h)) :: decodeUnits rest := by
  have inside :=
    @inside_promised 0x90 0x8F k 4 j six (fun zero => Nat.add_le_add_right (long zero) 128)
    fun last => Nat.le_of_lt_succ (Nat.add_lt_add_right (small last) 128)
  rw [decodeUnits, if_neg (not_plain (by omega) (by omega)), leadByte?_four k lead]
  have low : (k + 240) % 8 = k := by omega
  simp only [inside, Bool.not_true, Bool.false_eq_true, if_false, payload_six j six,
    payload_six i six', payload_six h six'', isContinuation_six i six', isContinuation_six h six'',
    toNat_byte (show k + 240 < 256 by omega), low]
  rfl

/-- The bytes that a character is written with: one, or a leading byte and one to three bytes that
continue it. -/
inductive IsEncoded : Char → List UInt8 → Prop
  | one {n : Nat} (small : n < 128) : IsEncoded (Char.ofNat n) [UInt8.ofNat n]
  | two {k j : Nat} (lead : k < 32) (long : 2 ≤ k) (six : j < 64) :
    IsEncoded (Char.ofNat (k * 64 + j)) [UInt8.ofNat (k + 192), UInt8.ofNat (j + 128)]
  | three {k j i : Nat} (lead : k < 16) (six : j < 64) (six' : i < 64) (long : k = 0 → 32 ≤ j)
    (no_surrogate : k = 13 → j < 32) :
    IsEncoded (Char.ofNat (k * 4096 + j * 64 + i))
      [UInt8.ofNat (k + 224), UInt8.ofNat (j + 128), UInt8.ofNat (i + 128)]
  | four {k j i h : Nat} (lead : k < 5) (six : j < 64) (six' : i < 64) (six'' : h < 64)
    (long : k = 0 → 16 ≤ j) (small : k = 4 → j < 16) :
    IsEncoded (Char.ofNat (k * 262144 + j * 4096 + i * 64 + h))
      [UInt8.ofNat (k + 240), UInt8.ofNat (j + 128), UInt8.ofNat (i + 128), UInt8.ofNat (h + 128)]

theorem isEncoded_utf8EncodeChar (c : Char) : IsEncoded c (String.utf8EncodeChar c) := by
  have valid : c.val.toNat < 0xD800 ∨ 0xDFFF < c.val.toNat ∧ c.val.toNat < 0x110000 := c.valid
  have numbered {n : Nat} {bytes : List UInt8} (number : c.val.toNat = n)
      (h : IsEncoded (Char.ofNat n) bytes) :
      IsEncoded c bytes := by
    have back : Char.ofNat c.val.toNat = c := Char.ofNat_toNat c
    rwa [← number, back] at h
  unfold String.utf8EncodeChar
  dsimp only
  split
  · exact numbered rfl (.one (by omega))
  split
  · exact numbered (by omega) (.two (by omega) (by omega) (by omega))
  split
  · exact numbered (by omega) (.three (by omega) (by omega) (by omega) (by omega) (by omega))
  · exact numbered (by omega)
      (.four (by omega) (by omega) (by omega) (by omega) (by omega) (by omega))

theorem IsEncoded.decodeUnits_append {c : Char} {bytes : List UInt8} (h : IsEncoded c bytes)
    (rest : List UInt8) :
    decodeUnits (bytes ++ rest) = some c :: decodeUnits rest := by
  cases h with
  | one small => exact decodeUnits_one small rest
  | two lead long six => exact decodeUnits_two lead long six rest
  | three lead six six' long no_surrogate =>
      exact decodeUnits_three lead six six' long no_surrogate rest
  | four lead six six' six'' long small =>
      exact decodeUnits_four lead six six' six'' long small rest

/-- **What is written of a character is read as this character.** -/
theorem decodeUnits_utf8EncodeChar (c : Char) (rest : List UInt8) :
    decodeUnits (String.utf8EncodeChar c ++ rest) = some c :: decodeUnits rest :=
  (isEncoded_utf8EncodeChar c).decodeUnits_append rest

theorem decodeUnits_utf8 (s : List Char) : decodeUnits (utf8 s) = s.map some := by
  induction s with
  | nil => rw [utf8, List.flatMap_nil, decodeUnits, List.map_nil]
  | cons c rest ih =>
    rw [utf8, List.flatMap_cons, decodeUnits_utf8EncodeChar, List.map_cons]
    exact congrArg _ ih

/-- Characters are read off their bytes. -/
theorem utf8_inj {s t : List Char} (same : utf8 s = utf8 t) : s = t := by
  have units := congrArg decodeUnits same
  rw [decodeUnits_utf8, decodeUnits_utf8] at units
  exact (List.map_inj_right fun _ _ => Option.some.inj).1 units

/-! ## What is read

The interval of the first continuation byte keeps out longer forms than needed, surrogates and
numbers that no character has, so the number that is put together is that of a character, written
with these bytes. -/

theorem byte_cases (b : UInt8) : ∃ n, n < 256 ∧ b = UInt8.ofNat n :=
  ⟨b.toNat, b.toNat_lt, by rw [UInt8.ofNat_toNat]⟩

theorem six_of_inside {low high b : UInt8} (least : 128 ≤ low.toNat) (greatest : high.toNat ≤ 191)
    (inside : (low ≤ b && b ≤ high) = true) :
    ∃ j, j < 64 ∧ b = UInt8.ofNat (j + 128) ∧ low.toNat ≤ j + 128 ∧ j + 128 ≤ high.toNat := by
  rw [Bool.and_eq_true, decide_eq_true_eq, decide_eq_true_eq, UInt8.le_iff_toNat_le,
    UInt8.le_iff_toNat_le] at inside
  refine ⟨b.toNat - 128, by omega, ?_, by omega, by omega⟩
  rw [Nat.sub_add_cancel (by omega), UInt8.ofNat_toNat]

theorem six_of_isContinuation {b : UInt8} (h : isContinuation b = true) :
    ∃ j, j < 64 ∧ b = UInt8.ofNat (j + 128) := by
  obtain ⟨j, six, same, -⟩ := @six_of_inside 0x80 0xBF b (Nat.le_refl 128) (Nat.le_refl 191) h
  exact ⟨j, six, same⟩

theorem leadByte?_none : ∀ n, n < 256 → n < 194 ∨ 245 ≤ n → leadByte? (UInt8.ofNat n) = none := by
  decide +kernel

/-- The bytes that start a longer character. -/
inductive IsLead : UInt8 → Nat × UInt8 × UInt8 → Prop
  | two {k : Nat} (lead : k < 32) (long : 2 ≤ k) : IsLead (UInt8.ofNat (k + 192)) (1, 0x80, 0xBF)
  | three {k : Nat} (lead : k < 16) :
    IsLead (UInt8.ofNat (k + 224)) (2, if k = 0 then 0xA0 else 0x80, if k = 13 then 0x9F else 0xBF)
  | four {k : Nat} (lead : k < 5) :
    IsLead (UInt8.ofNat (k + 240)) (3, if k = 0 then 0x90 else 0x80, if k = 4 then 0x8F else 0xBF)

theorem isLead_of_leadByte? {b : UInt8} {promise : Nat × UInt8 × UInt8}
    (h : leadByte? b = some promise) :
    IsLead b promise := by
  obtain ⟨n, byte, rfl⟩ := byte_cases b
  by_cases none : n < 194 ∨ 245 ≤ n
  · rw [leadByte?_none n byte none] at h
    cases h
  by_cases two : n < 224
  · obtain ⟨k, rfl⟩ : ∃ k, n = k + 192 := ⟨n - 192, by omega⟩
    rw [leadByte?_two k (by omega) (by omega)] at h
    cases h
    exact .two (by omega) (by omega)
  by_cases three : n < 240
  · obtain ⟨k, rfl⟩ : ∃ k, n = k + 224 := ⟨n - 224, by omega⟩
    rw [leadByte?_three k (by omega)] at h
    cases h
    exact .three (by omega)
  · obtain ⟨k, rfl⟩ : ∃ k, n = k + 240 := ⟨n - 240, by omega⟩
    rw [leadByte?_four k (by omega)] at h
    cases h
    exact .four (by omega)

theorem val_ofNat {n : Nat} (valid : n < 0xD800 ∨ 0xDFFF < n ∧ n < 0x110000) :
    (Char.ofNat n).val.toNat = n := by
  rw [Char.ofNat, dif_pos valid]
  rfl

theorem utf8EncodeChar_one {n : Nat} (small : n < 128) :
    String.utf8EncodeChar (Char.ofNat n) = [UInt8.ofNat n] := by
  rw [String.utf8EncodeChar, val_ofNat (.inl (by omega))]
  exact if_pos (by omega)

theorem utf8EncodeChar_two {k j : Nat} (lead : k < 32) (long : 2 ≤ k) (six : j < 64) :
    String.utf8EncodeChar (Char.ofNat (k * 64 + j)) = [UInt8.ofNat (k + 192),
      UInt8.ofNat (j + 128)] := by
  rw [String.utf8EncodeChar, val_ofNat (.inl (by omega))]
  rw [if_neg (by omega), if_pos (by omega), show (k * 64 + j) / 64 % 32 = k by omega,
    show (k * 64 + j) % 64 = j by omega]

theorem utf8EncodeChar_three {k j i : Nat} (lead : k < 16) (six : j < 64) (six' : i < 64)
    (long : k = 0 → 32 ≤ j) (no_surrogate : k = 13 → j < 32) :
    String.utf8EncodeChar (Char.ofNat (k * 4096 + j * 64 + i)) =
      [UInt8.ofNat (k + 224), UInt8.ofNat (j + 128), UInt8.ofNat (i + 128)] := by
  rw [String.utf8EncodeChar, val_ofNat (by omega)]
  rw [if_neg (by omega), if_neg (by omega), if_pos (by omega),
    show (k * 4096 + j * 64 + i) / 4096 % 16 = k by omega,
    show (k * 4096 + j * 64 + i) / 64 % 64 = j by omega,
    show (k * 4096 + j * 64 + i) % 64 = i by omega]

theorem utf8EncodeChar_four {k j i h : Nat} (lead : k < 5) (six : j < 64) (six' : i < 64)
    (six'' : h < 64) (long : k = 0 → 16 ≤ j) (small : k = 4 → j < 16) :
    String.utf8EncodeChar (Char.ofNat (k * 262144 + j * 4096 + i * 64 + h)) =
      [UInt8.ofNat (k + 240), UInt8.ofNat (j + 128), UInt8.ofNat (i + 128),
        UInt8.ofNat (h + 128)] := by
  rw [String.utf8EncodeChar, val_ofNat (by omega)]
  rw [if_neg (by omega), if_neg (by omega), if_neg (by omega),
    show (k * 262144 + j * 4096 + i * 64 + h) / 262144 % 8 = k by omega,
    show (k * 262144 + j * 4096 + i * 64 + h) / 4096 % 64 = j by omega,
    show (k * 262144 + j * 4096 + i * 64 + h) / 64 % 64 = i by omega,
    show (k * 262144 + j * 4096 + i * 64 + h) % 64 = h by omega]

/-- The continuation bytes that a leading byte asks for are there if a character is read. -/
theorem continued_of_decodeUnits {b0 : UInt8} {r0 : List UInt8} {count : Nat} {low high : UInt8}
    (plain : ¬b0 < 0x80) (promised : leadByte? b0 = some (count, low, high))
    (least : 128 ≤ low.toNat) (greatest : high.toNat ≤ 191) {c : Char} {units : List (Option Char)}
    (h : decodeUnits (b0 :: r0) = some c :: units) :
    ∃ j r1, r0 = UInt8.ofNat (j + 128) :: r1 ∧ j < 64 ∧ low.toNat ≤ j + 128 ∧ j + 128 ≤ high.toNat ∧
      (count ≠ 1 → ∃ i r2, r1 = UInt8.ofNat (i + 128) :: r2 ∧ i < 64 ∧
        (count ≠ 2 → ∃ k r3, r2 = UInt8.ofNat (k + 128) :: r3 ∧ k < 64)) := by
  rw [decodeUnits, if_neg plain, promised] at h
  cases r0 with
  | nil => cases h
  | cons b1 r1 =>
    dsimp only at h
    split at h
    · cases h
    · rename_i inside
      rw [Bool.not_eq_true, Bool.not_eq_false'] at inside
      obtain ⟨j, six, rfl, above, below⟩ := six_of_inside least greatest inside
      refine ⟨j, r1, rfl, six, above, below, fun more => ?_⟩
      rw [if_neg (by simpa using more)] at h
      cases r1 with
      | nil => cases h
      | cons b2 r2 =>
        dsimp only at h
        split at h
        · cases h
        · rename_i inside
          rw [Bool.not_eq_true, Bool.not_eq_false'] at inside
          obtain ⟨i, six, rfl⟩ := six_of_isContinuation inside
          refine ⟨i, r2, rfl, six, fun more => ?_⟩
          rw [if_neg (by simpa using more)] at h
          cases r2 with
          | nil => cases h
          | cons b3 r3 =>
            dsimp only at h
            split at h
            · cases h
            · rename_i inside
              rw [Bool.not_eq_true, Bool.not_eq_false'] at inside
              obtain ⟨k, six, rfl⟩ := six_of_isContinuation inside
              exact ⟨k, r3, rfl, six⟩

/-- **What is read as a character is written of this character.** -/
theorem utf8EncodeChar_of_decodeUnits {bytes : List UInt8} {c : Char} {units : List (Option Char)}
    (h : decodeUnits bytes = some c :: units) :
    ∃ rest, bytes = String.utf8EncodeChar c ++ rest ∧ decodeUnits rest = units := by
  cases bytes with
  | nil =>
    rw [decodeUnits] at h
    cases h
  | cons b0 r0 =>
    by_cases plain : b0 < 0x80
    · obtain ⟨n, byte, rfl⟩ := byte_cases b0
      rw [UInt8.lt_iff_toNat_lt, toNat_byte byte] at plain
      have small : n < 128 := plain
      rw [decodeUnits_one small] at h
      cases h
      exact ⟨r0, by rw [utf8EncodeChar_one small]; rfl, rfl⟩
    · cases promised : leadByte? b0 with
      | none =>
        rw [decodeUnits, if_neg plain, promised] at h
        cases h
      | some promise =>
        cases isLead_of_leadByte? promised with
        | two lead long =>
          obtain ⟨j, r1, rfl, six, -⟩ :=
            continued_of_decodeUnits plain promised (by decide) (by decide) h
          rw [decodeUnits_two lead long six] at h
          cases h
          exact ⟨r1, by rw [utf8EncodeChar_two lead long six]; rfl, rfl⟩
        | three lead =>
          obtain ⟨j, r1, rfl, six, above, below, more⟩ :=
            continued_of_decodeUnits plain promised (by split <;> decide) (by split <;> decide) h
          obtain ⟨i, r2, rfl, six', -⟩ := more (by decide)
          have long : _ = 0 → 32 ≤ j := fun zero => by
            rw [if_pos zero] at above
            exact Nat.le_of_add_le_add_right (show 32 + 128 ≤ j + 128 from above)
          have no_surrogate : _ = 13 → j < 32 := fun last => by
            rw [if_pos last] at below
            exact Nat.lt_of_add_lt_add_right (Nat.lt_succ_of_le below)
          rw [decodeUnits_three lead six six' long no_surrogate] at h
          cases h
          exact ⟨r2, by rw [utf8EncodeChar_three lead six six' long no_surrogate]; rfl, rfl⟩
        | four lead =>
          obtain ⟨j, r1, rfl, six, above, below, more⟩ :=
            continued_of_decodeUnits plain promised (by split <;> decide) (by split <;> decide) h
          obtain ⟨i, r2, rfl, six', more⟩ := more (by decide)
          obtain ⟨k, r3, rfl, six''⟩ := more (by decide)
          have long : _ = 0 → 16 ≤ j := fun zero => by
            rw [if_pos zero] at above
            exact Nat.le_of_add_le_add_right (show 16 + 128 ≤ j + 128 from above)
          have small : _ = 4 → j < 16 := fun last => by
            rw [if_pos last] at below
            exact Nat.lt_of_add_lt_add_right (Nat.lt_succ_of_le below)
          rw [decodeUnits_four lead six six' six'' long small] at h
          cases h
          exact ⟨r3, by rw [utf8EncodeChar_four lead six six' six'' long small]; rfl, rfl⟩

theorem eq_nil_of_decodeUnits {bytes : List UInt8} (h : decodeUnits bytes = []) : bytes = [] := by
  revert h
  fun_cases decodeUnits bytes <;> simp

theorem utf8_of_decodeUnits {bytes : List UInt8} {s : List Char}
    (h : decodeUnits bytes = s.map some) :
    bytes = utf8 s := by
  induction s generalizing bytes with
  | nil => exact eq_nil_of_decodeUnits h
  | cons c rest ih =>
    obtain ⟨later, rfl, read⟩ := utf8EncodeChar_of_decodeUnits h
    rw [ih read]
    rfl

theorem mapM_id_eq_some {units : List (Option Char)} {s : List Char} :
    units.mapM id = some s ↔ units = s.map some := by
  induction units generalizing s with
  | nil =>
    rw [List.mapM_nil]
    cases s <;> simp
  | cons u rest ih =>
    rw [List.mapM_cons]
    cases u with
    | none => cases s <;> simp
    | some c =>
      cases s with
      | nil => cases rest.mapM id <;> simp
      | cons d later =>
        rw [List.map_cons, List.cons.injEq, ← ih]
        cases rest.mapM id <;> simp

/-- **Bytes are read as a text exactly if they are the bytes of the text.** -/
theorem decode?_eq_some_iff {bytes : List UInt8} {s : List Char} :
    decode? bytes = some s ↔ bytes = utf8 s := by
  rw [decode?, mapM_id_eq_some]
  constructor
  · exact utf8_of_decodeUnits
  · rintro rfl
    exact decodeUnits_utf8 s

end SelectorCatalog.Text
