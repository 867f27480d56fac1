import SelectorCatalog.Proofs.Text.Encoding

/-!
# Texts cut between bytes

A range of bytes of a text need not start or end between two characters. `Text.shown` tells,
character by character, what is read of such a range: a character that lies in it as a whole is
shown as it is, one that the range ends in as one U+FFFD, and one that it starts in as a U+FFFD for
each of its bytes in the range. The lenient reading of the bytes gives exactly this
(`Text.decodeReplacing_range`).
-/

set_option autoImplicit false

namespace SelectorCatalog.Text

theorem length_utf8 (s : String) : (utf8 s.toList).length = s.utf8ByteSize :=
  calc (utf8 s.toList).length
    _ = s.toList.utf8Encode.size := List.size_toByteArray.symm
    _ = s.toByteArray.size := by rw [← String.toByteArray_ofList, String.ofList_toList]
    _ = s.utf8ByteSize := String.size_toByteArray

/-! ## What is shown of a range -/

/-- What a range of bytes shows of a character that starts at an offset: nothing if it lies outside,
a U+FFFD for each byte in the range if it starts before, one U+FFFD if it ends behind. -/
def shownOf (first stop offset : Nat) (c : Char) : List Char :=
  if offset + c.utf8Size ≤ first ∨ stop ≤ offset then []
  else if offset < first then
    List.replicate (min stop (offset + c.utf8Size) - first) (Char.ofNat 0xFFFD)
  else if stop < offset + c.utf8Size then [Char.ofNat 0xFFFD]
  else [c]

/-- What a range of bytes shows of a text that starts at an offset. -/
def shown (first stop : Nat) : Nat → List Char → List Char
  | _, [] => []
  | offset, c :: rest => shownOf first stop offset c ++ shown first stop (offset + c.utf8Size) rest

variable {first stop offset : Nat}

theorem utf8_cons (c : Char) (rest : List Char) :
    utf8 (c :: rest) = String.utf8EncodeChar c ++ utf8 rest := rfl

theorem length_utf8_cons (c : Char) (rest : List Char) :
    (utf8 (c :: rest)).length = c.utf8Size + (utf8 rest).length := by
  rw [utf8_cons, List.length_append, String.length_utf8EncodeChar]

theorem shown_append (s t : List Char) :
    shown first stop offset (s ++ t) = shown first stop offset s ++
      shown first stop (offset + (utf8 s).length) t := by
  induction s generalizing offset with
  | nil => rfl
  | cons c rest ih =>
    rw [List.cons_append, shown, shown, ih, List.append_assoc, length_utf8_cons, Nat.add_assoc]

/-- Nothing is shown of what ends before the range. -/
theorem shown_before {s : List Char} (before : offset + (utf8 s).length ≤ first) :
    shown first stop offset s = [] := by
  induction s generalizing offset with
  | nil => rfl
  | cons c rest ih =>
    rw [length_utf8_cons] at before
    rw [shown, shownOf, if_pos (.inl (by omega)), ih (by omega)]
    rfl

/-- Nothing is shown of what starts after the range. -/
theorem shown_after {s : List Char} (after : stop ≤ offset) : shown first stop offset s = [] := by
  induction s generalizing offset with
  | nil => rfl
  | cons c rest ih =>
    rw [shown, shownOf, if_pos (.inr after), ih (by omega)]
    rfl

/-- What lies in the range is shown as it is. -/
theorem shown_inside {s : List Char} (starts : first ≤ offset)
    (ends : offset + (utf8 s).length ≤ stop) :
    shown first stop offset s = s := by
  induction s generalizing offset with
  | nil => rfl
  | cons c rest ih =>
    rw [length_utf8_cons] at ends
    have filled := c.utf8Size_pos
    rw [shown, shownOf, if_neg (by omega), if_neg (by omega), if_neg (by omega),
      ih (by omega) (by omega)]
    rfl

/-! ## Bytes of a part of a character -/

/-- After the first byte of a character there are only bytes that continue it. -/
theorem IsEncoded.isContinuation {c : Char} {bytes : List UInt8} (h : IsEncoded c bytes)
    {n : Nat} (started : 0 < n) :
    ∀ b ∈ bytes.drop n, isContinuation b = true := by
  have six := isContinuation_six
  suffices rest : ∀ b ∈ bytes.tail, Text.isContinuation b = true by
    obtain ⟨m, rfl⟩ : ∃ m, n = m + 1 := ⟨n - 1, by omega⟩
    rw [← List.drop_tail]
    exact fun b mem => rest b (List.mem_of_mem_drop mem)
  cases h with
  | one => exact List.forall_mem_nil _
  | two _ _ six₁ => exact List.forall_mem_singleton.2 (six _ six₁)
  | three _ six₁ six₂ => exact List.forall_mem_cons.2 ⟨six _ six₁,
      List.forall_mem_singleton.2 (six _ six₂)⟩
  | four _ six₁ six₂ six₃ =>
    exact List.forall_mem_cons.2 ⟨six _ six₁, List.forall_mem_cons.2 ⟨six _ six₂,
      List.forall_mem_singleton.2 (six _ six₃)⟩⟩

/-- A byte that continues a character is ill-formed where none has been started. -/
theorem decodeUnits_continuation {b : UInt8} (continues : isContinuation b = true)
    (rest : List UInt8) :
    decodeUnits (b :: rest) = none :: decodeUnits rest := by
  obtain ⟨j, six, rfl⟩ := six_of_isContinuation continues
  have plain : ¬UInt8.ofNat (j + 128) < 0x80 := not_plain (Nat.le_refl 128) (by omega)
  rw [decodeUnits, if_neg plain, leadByte?_none (j + 128) (by omega) (.inl (by omega))]

section Cut

variable {b0 b1 b2 low high : UInt8} {count : Nat}

theorem decodeUnits_cut_one (plain : ¬b0 < 0x80)
    (promised : leadByte? b0 = some (count, low, high)) :
    decodeUnits [b0] = [none] := by
  rw [decodeUnits, if_neg plain, promised]

theorem decodeUnits_cut_two (plain : ¬b0 < 0x80) (promised : leadByte? b0 = some (count, low, high))
    (inside : (low ≤ b1 && b1 ≤ high) = true) (more : count ≠ 1) :
    decodeUnits [b0, b1] = [none] := by
  rw [decodeUnits, if_neg plain, promised]
  simp [inside, more]

theorem decodeUnits_cut_three (plain : ¬b0 < 0x80)
    (promised : leadByte? b0 = some (count, low, high)) (inside : (low ≤ b1 && b1 ≤ high) = true)
    (more : count ≠ 1) (continues : isContinuation b2 = true) (yet_more : count ≠ 2) :
    decodeUnits [b0, b1, b2] = [none] := by
  rw [decodeUnits, if_neg plain, promised]
  simp [inside, more, continues, yet_more]

end Cut

/-- **A character that is cut off is one ill-formed part.** -/
theorem IsEncoded.decodeUnits_take {c : Char} {bytes : List UInt8} (h : IsEncoded c bytes) {n : Nat}
    (some_left : 0 < n) (cut : n < bytes.length) : decodeUnits (bytes.take n) = [none] := by
  cases h with
  | one small =>
    simp only [List.length_singleton] at cut
    omega
  | @two k j lead long six =>
    obtain rfl : n = 1 := by
      simp only [List.length_cons, List.length_nil] at cut
      omega
    exact decodeUnits_cut_one (not_plain (by omega) (by omega)) (leadByte?_two k lead long)
  | @three k j i lead six six' long no_surrogate =>
    have plain : ¬UInt8.ofNat (k + 224) < 0x80 := not_plain (by omega) (by omega)
    have promised := leadByte?_three k lead
    obtain rfl | rfl : n = 1 ∨ n = 2 := by
      simp only [List.length_cons, List.length_nil] at cut
      omega
    · exact decodeUnits_cut_one plain promised
    · refine decodeUnits_cut_two plain promised ?_ (by decide)
      exact @inside_promised 0xA0 0x9F k 13 j six (fun zero => Nat.add_le_add_right (long zero) 128)
        fun last => Nat.le_of_lt_succ (Nat.add_lt_add_right (no_surrogate last) 128)
  | @four k j i h lead six six' six'' long small =>
    have plain : ¬UInt8.ofNat (k + 240) < 0x80 := not_plain (by omega) (by omega)
    have promised := leadByte?_four k lead
    have inside :=
      @inside_promised 0x90 0x8F k 4 j six (fun zero => Nat.add_le_add_right (long zero) 128)
      fun last => Nat.le_of_lt_succ (Nat.add_lt_add_right (small last) 128)
    obtain rfl | rfl | rfl : n = 1 ∨ n = 2 ∨ n = 3 := by
      simp only [List.length_cons, List.length_nil] at cut
      omega
    · exact decodeUnits_cut_one plain promised
    · exact decodeUnits_cut_two plain promised inside (by decide)
    · exact decodeUnits_cut_three plain promised inside (by decide)
        (isContinuation_six i six') (by decide)

/-! ## Bytes of a range -/

theorem decodeReplacing_continuations {bytes : List UInt8}
    (all : ∀ b ∈ bytes, isContinuation b = true) (rest : List UInt8) :
    decodeReplacing (bytes ++ rest) =
      List.replicate bytes.length (Char.ofNat 0xFFFD) ++ decodeReplacing rest := by
  induction bytes with
  | nil => rfl
  | cons b others ih =>
    have ⟨first, later⟩ := List.forall_mem_cons.1 all
    rw [decodeReplacing, List.cons_append, decodeUnits_continuation first, List.map_cons]
    exact congrArg _ (ih later)

theorem decodeReplacing_char (c : Char) (rest : List UInt8) :
    decodeReplacing (String.utf8EncodeChar c ++ rest) = c :: decodeReplacing rest := by
  rw [decodeReplacing, decodeUnits_utf8EncodeChar]
  rfl

/-- The bytes of a text in a range, as those of its first character and those of the rest. -/
theorem range_cons (c : Char) (rest : List Char) :
    ((utf8 (c :: rest)).drop (first - offset)).take (stop - max first offset) =
      ((String.utf8EncodeChar c).drop (first - offset)).take (stop - max first offset) ++
      ((utf8 rest).drop (first - (offset + c.utf8Size))).take
        (stop - max first (offset + c.utf8Size)) := by
  rw [utf8_cons, List.drop_append, List.take_append, List.length_drop, String.length_utf8EncodeChar]
  congr 2
  · omega
  · congr 1
    omega

/-- **What is read of a range of bytes is what the range shows of the text.** -/
theorem decodeReplacing_range (s : List Char) :
    decodeReplacing (((utf8 s).drop (first - offset)).take (stop - max first offset)) =
      shown first stop offset s := by
  induction s generalizing offset with
  | nil =>
    rw [utf8, List.flatMap_nil, List.drop_nil, List.take_nil, decodeReplacing, decodeUnits]
    rfl
  | cons c rest ih =>
    have encoded := isEncoded_utf8EncodeChar c
    have size := String.length_utf8EncodeChar c
    rw [range_cons, shown, shownOf]
    split
    · rename_i apart
      have none_left : ((String.utf8EncodeChar c).drop (first - offset)).take
          (stop - max first offset) = [] := by
        rcases apart with before | after
        · rw [List.drop_eq_nil_of_le (by omega), List.take_nil]
        · rw [show stop - max first offset = 0 by omega, List.take_zero]
      rw [none_left, List.nil_append, List.nil_append, ih]
    split
    · rename_i together starts
      rw [decodeReplacing_continuations, ih, List.length_take, List.length_drop, size]
      · congr 2
        omega
      · exact fun b mem => encoded.isContinuation (by omega) b (List.mem_of_mem_take mem)
    split
    · -- Nothing of the rest is in the range, and the first bytes of the character are one
      -- ill-formed part.
      rename_i together starts ends
      have nothing : stop - max first (offset + c.utf8Size) = 0 := by omega
      have left : stop - max first offset < (String.utf8EncodeChar c).length := by omega
      rw [nothing, List.take_zero, List.append_nil, show first - offset = 0 by omega,
        List.drop_zero, decodeReplacing, encoded.decodeUnits_take (by omega) left,
        shown_after (by omega)]
      rfl
    · rename_i together starts ends
      rw [show first - offset = 0 by omega, List.drop_zero, List.take_of_length_le (by omega),
        decodeReplacing_char, ih]
      rfl

/-- A range from the second byte of the first character to the second byte of the third. -/
example : shown 1 7 0 "é€😀".toList = [Char.ofNat 0xFFFD, '€', Char.ofNat 0xFFFD] := by decide

end SelectorCatalog.Text
