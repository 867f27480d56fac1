import SelectorCatalog.Functions.SourceText
import SelectorCatalog.Proofs.Steps
import SelectorCatalog.Proofs.Text.Cutting
import SelectorCatalog.Proofs.Text.Numerals

/-!
# Declaration text is cut by bytes

A range of a source is written `start:length`, and anything may follow after another colon
(`writeRange`).

* `sliceSource_writeRange` : what is cut is what the range shows of the source, unless the range is
  empty, starts before the source or has a numeral with more digits than are read;
* `sliceSource_range` : so a range between characters gives exactly the text between them, a range
  past the end gives the rest, and cutting never fails;
* `sliceSource_longLength` : a length of 4301 digits gives nothing, though it runs past the end.
-/

set_option autoImplicit false

namespace SelectorCatalog

open Text (IsShort)

/-- A range as a syntax tree writes it, and what follows it. -/
def writeRange (start length : Int) (after : String) : String :=
  toString start ++ ":" ++ toString length ++ after

theorem colon_not_mem_toString (n : Int) : ':' ∉ (toString n).toList := fun mem => by
  rcases Text.mem_toString mem with digit | minus
  · exact absurd digit (by decide)
  · exact absurd minus (by decide)

theorem integerOf_toString (n : Int) :
    integerOf (toString n) = if IsShort n then .ok n else
      .error (Fault.ofNumeral (toString n) (.tooLong (Nat.toDigits 10 n.natAbs).length)) := by
  rw [integerOf, Text.readInteger_toString_eq]
  split <;> rfl

/-- A written range is read back, if its numerals are. -/
theorem readRange?_writeRange (start length : Int) {after : String}
    (ends : after = "" ∨ ∃ more, after = ":" ++ more) :
    readRange? (writeRange start length after) =
      if IsShort start ∧ IsShort length then some (start, length) else none := by
  have parts : ((writeRange start length after).toList.splitOn ':').take 2 =
      [(toString start).toList, (toString length).toList] := by
    have whole : (writeRange start length after).toList =
        (toString start).toList ++ ':' :: ((toString length).toList ++ after.toList) := by
      simp [writeRange]
    rw [whole, List.splitOn_append_cons_self_of_not_mem (colon_not_mem_toString start)]
    rcases ends with rfl | ⟨more, rfl⟩
    · rw [String.toList_empty, List.append_nil,
        List.splitOn_eq_singleton (colon_not_mem_toString length)]
      rfl
    · rw [String.toList_append]
      have colon : ":".toList ++ more.toList = ':' :: more.toList := rfl
      rw [colon, List.splitOn_append_cons_self_of_not_mem (colon_not_mem_toString length)]
      rfl
  rw [readRange?, parts]
  simp only [String.ofList_toList, integerOf_toString]
  by_cases short : IsShort start <;> by_cases short' : IsShort length <;> simp [short, short']

theorem cutBytes_eq (source : String) (start length : Nat) :
    cutBytes source start length =
      String.ofList (Text.shown start (start + length) 0 source.toList) := by
  have range := @Text.decodeReplacing_range start (start + length) 0 source.toList
  rw [Nat.sub_zero, Nat.max_zero, Nat.add_sub_cancel_left] at range
  rw [cutBytes, range]

variable {sources : OrderedMap String} {file source : String}

/-- **What is cut of a source by a written range.** -/
theorem sliceSource_writeRange (held : sources.get? file = some source) (start length : Int)
    {after : String} (ends : after = "" ∨ ∃ more, after = ":" ++ more) :
    sliceSource sources file (.text (writeRange start length after)) =
      .ok (if IsShort start ∧ IsShort length ∧ 0 ≤ start ∧ 0 < length then
        String.ofList (Text.shown start.toNat (start.toNat + length.toNat) 0 source.toList)
          else "") := by
  have given : Value.isGiven (.text (writeRange start length after)) = true := by
    simp [Value.isGiven, writeRange]
  have text : Value.asText (.text (writeRange start length after)) =
      .ok (writeRange start length after) := rfl
  rw [sliceSource, given, held, text]
  simp only [Bool.not_true, Bool.false_eq_true, if_false, ok_bind,
    readRange?_writeRange start length ends]
  by_cases short : IsShort start ∧ IsShort length
  · rw [if_pos short]
    dsimp only
    split
    · rename_i empty
      have empty : start < 0 ∨ length ≤ 0 := by simpa using empty
      rw [if_neg fun range => by omega]
      rfl
    · rename_i filled
      have filled : 0 ≤ start ∧ 0 < length := by simpa using filled
      rw [if_pos ⟨short.1, short.2, filled⟩, ← cutBytes_eq]
      rfl
  · rw [if_neg short, if_neg fun range => short ⟨range.1, range.2.1⟩]
    rfl

/-! ## Ranges between characters -/

theorem shown_middle (a b c : String) :
    Text.shown a.utf8ByteSize (a.utf8ByteSize + b.utf8ByteSize) 0 (a ++ b ++ c).toList =
      b.toList := by
  have size := Text.length_utf8 a
  have size' := Text.length_utf8 b
  have before : Text.shown a.utf8ByteSize (a.utf8ByteSize + b.utf8ByteSize) 0 a.toList = [] :=
    Text.shown_before (by omega)
  have inside : Text.shown a.utf8ByteSize (a.utf8ByteSize + b.utf8ByteSize) a.utf8ByteSize
      b.toList = b.toList :=
    Text.shown_inside (Nat.le_refl _) (by omega)
  have after : Text.shown a.utf8ByteSize (a.utf8ByteSize + b.utf8ByteSize)
      (a.utf8ByteSize + b.utf8ByteSize) c.toList = [] := Text.shown_after (Nat.le_refl _)
  rw [String.toList_append, String.toList_append, List.append_assoc, Text.shown_append,
    Text.shown_append, Nat.zero_add, size, size', before, inside, after, List.nil_append,
    List.append_nil]

theorem shown_suffix (a b : String) {stop : Nat} (past : a.utf8ByteSize + b.utf8ByteSize ≤ stop) :
    Text.shown a.utf8ByteSize stop 0 (a ++ b).toList = b.toList := by
  have size := Text.length_utf8 a
  have size' := Text.length_utf8 b
  have before : Text.shown a.utf8ByteSize stop 0 a.toList = [] := Text.shown_before (by omega)
  have inside : Text.shown a.utf8ByteSize stop a.utf8ByteSize b.toList = b.toList :=
    Text.shown_inside (Nat.le_refl _) (by omega)
  rw [String.toList_append, Text.shown_append, Nat.zero_add, size, before, inside, List.nil_append]

/-- **Declaration text is cut exactly.** Cutting never fails. With numerals that are read, a range
between two characters gives the text between them, a range past the end gives the rest, and any
other range gives what it shows of the source. A range that is empty, starts before the source or
past its end, or has a longer numeral gives nothing. -/
theorem sliceSource_range (held : sources.get? file = some source) (start length : Int)
    {after : String} (ends : after = "" ∨ ∃ more, after = ":" ++ more) :
    ∃ text, sliceSource sources file (.text (writeRange start length after)) = .ok text ∧
      (IsShort start → IsShort length →
        (∀ a b c : String, source = a ++ b ++ c → b ≠ "" → start = a.utf8ByteSize →
          length = b.utf8ByteSize →
          text = b) ∧
        (∀ a b : String, source = a ++ b → start = a.utf8ByteSize →
          b.utf8ByteSize < length → text = b) ∧
        (0 ≤ start → 0 < length →
          text = String.ofList
            (Text.shown start.toNat (start.toNat + length.toNat) 0 source.toList))) ∧
      (start < 0 ∨ length ≤ 0 ∨ source.utf8ByteSize ≤ start → text = "") ∧
      (¬(IsShort start ∧ IsShort length) → text = "") := by
  refine ⟨_, sliceSource_writeRange held start length ends, fun short short' => ⟨?between, ?past,
    ?any⟩, ?empty, ?long⟩
  case between =>
    rintro a b c rfl filled rfl rfl
    have some_left : 0 < b.utf8ByteSize :=
      Nat.pos_of_ne_zero (mt String.utf8ByteSize_eq_zero_iff.1 filled)
    rw [if_pos ⟨short, short', by omega, by omega⟩, Int.toNat_natCast, Int.toNat_natCast,
      shown_middle, String.ofList_toList]
  case past =>
    rintro a b rfl rfl past
    rw [if_pos ⟨short, short', by omega, by omega⟩, Int.toNat_natCast, shown_suffix a b (by omega),
      String.ofList_toList]
  case any =>
    intro starts some_left
    rw [if_pos ⟨short, short', starts, some_left⟩]
  case empty =>
    intro nothing
    split
    · rename_i range
      have past : source.utf8ByteSize ≤ start := by omega
      have size := Text.length_utf8 source
      rw [Text.shown_before (by omega)]
    · rfl
  case long =>
    intro long
    exact if_neg fun range => long ⟨range.1, range.2.1⟩

/-- The bytes of characters of two, three and four bytes, and what follows the range. -/
theorem sliceSource_range_euro :
    sliceSource (.ofList [("a.sol", "é€😀")]) "a.sol" (.text (writeRange 2 3 ":0")) = .ok "€" := by
  have held : (OrderedMap.ofList [("a.sol", "é€😀")]).get? "a.sol" = some "é€😀" := rfl
  have follows : ":0" = "" ∨ ∃ more, ":0" = ":" ++ more := .inr ⟨"0", rfl⟩
  obtain ⟨text, cut, between, -, -⟩ := sliceSource_range held 2 3 follows
  have middle : text = "€" :=
    (between (by decide) (by decide)).1 "é" "€" "😀" rfl (by decide) rfl rfl
  rw [cut, middle]

/-- A one with `k` zeros, as a length. -/
def roundLength (k : Nat) : Nat := Nat.pow 10 k

theorem lt_roundLength (k : Nat) : k < roundLength k := Nat.lt_pow_self (by decide)

/-- A length of too many digits gives nothing, though it runs past the end of the source. -/
theorem sliceSource_longLength :
    "contract A \x7b\x7d".utf8ByteSize < roundLength Text.maxDigits ∧
    sliceSource (.ofList [("a.sol", "contract A \x7b\x7d")]) "a.sol"
      (.text (writeRange 0 (roundLength Text.maxDigits) "")) = .ok "" := by
  have held : (OrderedMap.ofList [("a.sol", "contract A \x7b\x7d")]).get? "a.sol" =
      some "contract A \x7b\x7d" := rfl
  have long (k : Nat) (many : Text.maxDigits ≤ k) : ¬IsShort (roundLength k) :=
    Text.not_isShort_pow many
  refine ⟨Nat.lt_trans (show 13 < Text.maxDigits by decide) (lt_roundLength _), ?_⟩
  rw [sliceSource_writeRange held 0 _ (.inl rfl),
    if_neg fun range => long _ (Nat.le_refl _) range.2.1]

end SelectorCatalog
