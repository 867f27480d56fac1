import SelectorCatalog.Proofs.Text.Encoding
import SelectorCatalog.Proofs.Text.Trimmed
import SelectorCatalog.Text.Hex
import SelectorCatalog.Text.LowerCase

/-!
# Texts in lower case

No small letter of the table is a capital itself (`isCapital_lowerChar`), so a text that was
lower-cased stays as it is when it is lower-cased again (`lower_lower`). Small letters are no
blanks, and lower-casing keeps a text trimmed (`isTrimmed_lower`). Hexadecimal digits are in lower
case (`lower_hexBytes`).
-/

set_option autoImplicit false

namespace SelectorCatalog.Text

/-! ## Capitals -/

/-- The dotted capital I, which has two small characters and so no place in the table. -/
def dottedCapital : CaseRun := ⟨0x130, 0x130, 1, 0⟩

namespace CaseRun

/-- Whether a code point is a capital of the run. -/
def holds (r : CaseRun) (n : Nat) : Bool :=
  decide (r.first ≤ n) && decide (n ≤ r.last) && (n - r.first) % r.step == 0

/-- Whether the run has no capital between `low` and `high`; if `alternate` is set, only every other
number from `low` on counts. -/
def avoids (low high : Nat) (alternate : Bool) (r : CaseRun) : Bool :=
  Nat.blt high r.first || Nat.blt r.last low ||
    (alternate && Nat.beq r.step 2 && Nat.beq ((low + r.first) % 2) 1)

/-- Whether the small letters of a run are characters, and neither capitals nor blanks. -/
def isSettled (r : CaseRun) : Bool :=
  let low := (r.first + r.shift).toNat
  let high := (r.last + r.shift).toNat
  decide (0 ≤ r.first + r.shift) &&
    (Nat.blt high 0xD800 || (Nat.blt 0xDFFF low && Nat.blt high 0x110000)) &&
    (dottedCapital :: caseRuns).all
      (avoids low high (Nat.beq r.step 2 || Nat.beq r.first r.last)) &&
    blankRanges.all fun b => Nat.blt high b.1 || Nat.blt b.2 low

end CaseRun

/-- Whether a code point is a capital. -/
def isCapital (n : Nat) : Bool := (dottedCapital :: caseRuns).any fun r => r.holds n

theorem isSettled_caseRuns : caseRuns.all CaseRun.isSettled = true := by decide +kernel

theorem CaseRun.holds_eq_false {r : CaseRun} {low high n : Nat} {alternate : Bool}
    (h : avoids low high alternate r = true) (least : low ≤ n) (greatest : n ≤ high)
    (turn : alternate = true → n % 2 = low % 2) : r.holds n = false := by
  rw [← Bool.not_eq_true, holds, Bool.and_eq_true, Bool.and_eq_true, decide_eq_true_eq,
    decide_eq_true_eq, beq_iff_eq]
  rintro ⟨⟨from_first, to_last⟩, on_step⟩
  simp only [avoids, Bool.or_eq_true, Bool.and_eq_true, Nat.blt_eq, Nat.beq_eq] at h
  rcases h with (above | below) | ⟨⟨single, two⟩, odd⟩
  · omega
  · omega
  · rw [two] at on_step
    have := turn single
    omega

theorem CaseRun.holds_of_find? {runs : List CaseRun} {r : CaseRun} {n : Nat}
    (found : runs.find? (fun r => r.holds n) = some r) : r.holds n = true := by
  have holds := List.find?_some found
  exact holds

/-- **The small letter of a capital** is a character, and neither a capital nor a blank. -/
theorem CaseRun.small {r : CaseRun} (mem : r ∈ caseRuns) {n : Nat} (h : r.holds n = true) :
    let small := Char.ofNat ((n : Int) + r.shift).toNat
    isCapital small.toNat = false ∧ isBlank small = false := by
  have settled := List.all_eq_true.1 isSettled_caseRuns r mem
  simp only [isSettled, Bool.and_eq_true, decide_eq_true_eq, List.all_eq_true, Bool.or_eq_true,
    Nat.blt_eq] at settled
  obtain ⟨⟨⟨positive, valid⟩, apart⟩, shown⟩ := settled
  simp only [holds, Bool.and_eq_true, decide_eq_true_eq, beq_iff_eq] at h
  obtain ⟨⟨from_first, to_last⟩, on_step⟩ := h
  intro small
  have place : small.toNat = ((n : Int) + r.shift).toNat := by
    refine val_ofNat ?_
    omega
  rw [isBlank, place]
  refine ⟨?_, ?_⟩
  · refine List.any_eq_false.2 fun other there => ?_
    rw [Bool.not_eq_true]
    refine holds_eq_false (apart other there) (by omega) (by omega) fun turns => ?_
    rcases Bool.or_eq_true_iff.1 turns with two | single
    · rw [Nat.beq_eq] at two
      rw [two] at on_step
      omega
    · rw [Nat.beq_eq] at single
      omega
  · rw [← Bool.not_eq_true, inRanges_iff]
    rintro ⟨b, there, least, greatest⟩
    rcases shown b there <;> omega

/-! ## Single characters -/

theorem isCapital_of_lt {n : Nat} (h : n < 65 ∨ 90 < n ∧ n < 128) : isCapital n = false := by
  have low : (dottedCapital :: caseRuns).all (CaseRun.avoids 0 64 false) = true := by decide +kernel
  have high : (dottedCapital :: caseRuns).all (CaseRun.avoids 91 127 false) = true := by
    decide +kernel
  refine List.any_eq_false.2 fun r mem => ?_
  rw [Bool.not_eq_true]
  rcases h with before | ⟨after, ascii⟩
  · exact CaseRun.holds_eq_false (List.all_eq_true.1 low r mem) (by omega) (by omega) (by simp)
  · exact CaseRun.holds_eq_false (List.all_eq_true.1 high r mem) (by omega) (by omega) (by simp)

theorem isCapital_of_le : ∀ n, n ≤ 90 → 65 ≤ n → isCapital n = true := by decide +kernel

theorem toLower_ascii : ∀ n, n < 128 →
    ((Char.ofNat n).toLower.toNat < 65 ∨
        90 < (Char.ofNat n).toLower.toNat ∧ (Char.ofNat n).toLower.toNat < 128) ∧
      (isBlank (Char.ofNat n) = false → isBlank (Char.ofNat n).toLower = false) ∧
      (n < 65 ∨ 90 < n → (Char.ofNat n).toLower = Char.ofNat n) := by decide +kernel

/-- A small letter is no capital, and no blank unless its capital is one. -/
theorem lowerChar_spec {c : Char} (other : c.toNat ≠ 0x130) :
    isCapital (lowerChar c).toNat = false ∧
      (isBlank c = false → isBlank (lowerChar c) = false) := by
  unfold lowerChar
  split
  · rename_i ascii
    have small := toLower_ascii c.toNat (UInt32.lt_iff_toNat_lt.1 ascii)
    rw [Char.ofNat_toNat] at small
    exact ⟨isCapital_of_lt small.1, small.2.1⟩
  · split
    · rename_i r found
      have small := CaseRun.small (List.mem_of_find?_eq_some found) (CaseRun.holds_of_find? found)
      exact ⟨small.1, fun _ => small.2⟩
    · rename_i none_found
      refine ⟨List.any_eq_false.2 fun r there => ?_, id⟩
      rcases List.mem_cons.1 there with rfl | mem
      · rw [CaseRun.holds, Bool.and_eq_true, Bool.and_eq_true, decide_eq_true_eq, decide_eq_true_eq]
        rintro ⟨⟨least, greatest⟩, -⟩
        exact other (Nat.le_antisymm greatest least)
      · exact List.find?_eq_none.1 none_found r mem

theorem lowerChar_of_not_isCapital {c : Char} (h : isCapital c.toNat = false) :
    lowerChar c = c := by
  unfold lowerChar
  split
  · rename_i ascii
    have small := toLower_ascii c.toNat (UInt32.lt_iff_toNat_lt.1 ascii)
    rw [Char.ofNat_toNat] at small
    refine small.2.2 ?_
    refine Decidable.byContradiction fun capital => ?_
    rw [isCapital_of_le c.toNat (by omega) (by omega)] at h
    cases h
  · split
    · rename_i r found
      have capital :=
        List.any_eq_false.1 h r (List.mem_cons_of_mem _ (List.mem_of_find?_eq_some found))
      exact absurd (CaseRun.holds_of_find? found) capital
    · rfl

/-! ## Texts -/

/-- What stands for one character in the lower-cased text. -/
def smallForm (before : List Char) (c : Char) (rest : List Char) : List Char :=
  if c.toNat = 0x130 then ['i', Char.ofNat 0x307]
  else if c.toNat = 0x3A3 then
    if startsCased before && !startsCased rest then [Char.ofNat 0x3C2] else [Char.ofNat 0x3C3]
  else [lowerChar c]

theorem lowerFrom_cons (before : List Char) (c : Char) (rest : List Char) :
    lowerFrom before (c :: rest) = smallForm before c rest ++ lowerFrom (c :: before) rest := rfl

theorem smallForm_ne_nil (before : List Char) (c : Char) (rest : List Char) :
    smallForm before c rest ≠ [] := by
  unfold smallForm
  repeat' split
  all_goals simp

theorem smallForm_spec {before rest : List Char} {c d : Char} (h : d ∈ smallForm before c rest) :
    isCapital d.toNat = false ∧ (isBlank c = false → isBlank d = false) := by
  have special : ∀ d ∈ ['i', Char.ofNat 0x307, Char.ofNat 0x3C2, Char.ofNat 0x3C3],
      isCapital d.toNat = false ∧ isBlank d = false := by
    simp only [List.forall_mem_cons, List.not_mem_nil, false_implies, implies_true, and_true]
    decide +kernel
  unfold smallForm at h
  split at h
  · exact (special d (List.mem_append_left [Char.ofNat 0x3C2, Char.ofNat 0x3C3] h)).imp_right
      fun shown _ => shown
  · rename_i other
    split at h
    · refine (special d ?_).imp_right fun shown _ => shown
      split at h
      all_goals simp [List.mem_singleton.1 h]
    · rw [List.mem_singleton.1 h]
      exact lowerChar_spec other

theorem smallForm_of_not_isCapital {c : Char} (h : isCapital c.toNat = false)
    (before rest : List Char) :
    smallForm before c rest = [c] := by
  have dotted : c.toNat ≠ 0x130 := by
    intro e
    rw [e] at h
    revert h
    decide +kernel
  have sigma : c.toNat ≠ 0x3A3 := by
    intro e
    rw [e] at h
    revert h
    decide +kernel
  rw [smallForm, if_neg dotted, if_neg sigma, lowerChar_of_not_isCapital h]

theorem lowerFrom_of_not_isCapital {s : List Char} (h : ∀ c ∈ s, isCapital c.toNat = false)
    (before : List Char) : lowerFrom before s = s := by
  induction s generalizing before with
  | nil => rfl
  | cons c rest ih =>
    have ⟨first, others⟩ := List.forall_mem_cons.1 h
    rw [lowerFrom_cons, smallForm_of_not_isCapital first, ih others]
    rfl

theorem isCapital_of_mem_lowerFrom {s before : List Char} {d : Char} (h : d ∈ lowerFrom before s) :
    isCapital d.toNat = false := by
  induction s generalizing before with
  | nil => cases h
  | cons c rest ih =>
    rw [lowerFrom_cons] at h
    rcases List.mem_append.1 h with first | later
    · exact (smallForm_spec first).1
    · exact ih later

/-- **What is in lower case stays as it is.** -/
@[simp] theorem lower_lower (s : String) : lower (lower s) = lower s := by
  rw [lower, lower, String.toList_ofList,
    lowerFrom_of_not_isCapital fun _ => isCapital_of_mem_lowerFrom]

theorem lowerFrom_eq_nil {s before : List Char} : lowerFrom before s = [] ↔ s = [] := by
  cases s with
  | nil => simp [lowerFrom]
  | cons c rest => simp [lowerFrom_cons, smallForm_ne_nil]

theorem lower_eq_empty {s : String} : lower s = "" ↔ s = "" := by
  rw [lower, String.ofList_eq_empty_iff, lowerFrom_eq_nil, String.toList_eq_nil_iff]

/-! ## Blanks -/

theorem getLast?_lowerFrom {s before : List Char} {d : Char}
    (h : (lowerFrom before s).getLast? = some d) :
    ∃ c, s.getLast? = some c ∧ (isBlank c = false → isBlank d = false) := by
  induction s generalizing before with
  | nil => cases h
  | cons c rest ih =>
    rw [lowerFrom_cons, List.getLast?_append] at h
    cases last : (lowerFrom (c :: before) rest).getLast? with
    | some e =>
      rw [last, Option.some_or, Option.some.injEq] at h
      obtain ⟨b, found, shown⟩ := ih (h ▸ last)
      refine ⟨b, ?_, shown⟩
      rw [List.getLast?_cons, found]
      rfl
    | none =>
      rw [last, Option.none_or] at h
      rw [List.getLast?_eq_none_iff, lowerFrom_eq_nil] at last
      exact ⟨c, by rw [last]; rfl, (smallForm_spec (List.mem_of_getLast? h)).2⟩

/-- **A trimmed text stays trimmed** in lower case. -/
theorem isTrimmed_lower {s : String} (h : IsTrimmed s.toList) : IsTrimmed (lower s).toList := by
  rw [lower, String.toList_ofList]
  refine ⟨fun d first => ?_, fun d last => ?_⟩
  · cases split : s.toList with
    | nil =>
      rw [split] at first
      cases first
    | cons c rest =>
      have filled : (smallForm [] c rest).head?.isSome = true :=
        List.isSome_head?.2 (smallForm_ne_nil _ _ _)
      rw [split, lowerFrom_cons, List.head?_append, Option.or_of_isSome filled] at first
      exact (smallForm_spec (List.mem_of_head? first)).2 (h.opens c (by rw [split]; rfl))
  · obtain ⟨c, found, shown⟩ := getLast?_lowerFrom last
    exact shown (h.ends c found)

/-! ## Hexadecimal digits -/

theorem not_isCapital_hexDigit :
    ∀ n, n < 16 → isCapital (hexDigit n).toNat = false := by decide +kernel

/-- **Bytes are written in lower case.** -/
theorem lower_hexBytes (bytes : List UInt8) : lower (hexBytes bytes) = hexBytes bytes := by
  rw [lower, lowerFrom_of_not_isCapital, String.ofList_toList]
  intro c mem
  obtain ⟨d, small, rfl⟩ := exists_of_mem_hexBytes mem
  exact not_isCapital_hexDigit d small

end SelectorCatalog.Text
