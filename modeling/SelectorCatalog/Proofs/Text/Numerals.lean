import SelectorCatalog.Proofs.Json.RoundTrip
import SelectorCatalog.Proofs.Steps
import SelectorCatalog.Proofs.Text.Trimmed

/-!
# The digits of a numeral

* `not_blank_of_isDecimalDigit` : a decimal digit of whatever script is no blank;
* `numberIn_toDigits` : a run of digits denotes the number that it was written for;
* `length_toDigits_numberIn` : the number of a run of digits is written with no more digits than the
  run has, or with one;
* `readInteger_short` : an integer that is read from a text has no more digits than are read;
* `readInteger_toString` : an integer with no more digits is read back from them.
-/

set_option autoImplicit false

namespace SelectorCatalog.Text

/-! ## Digits of every script -/

/-- A decimal digit is one of the ten characters from a zero on. -/
theorem exists_first_of_isDecimalDigit {c : Char} (h : isDecimalDigit c = true) :
    ∃ first ∈ digitZeros, first ≤ c.toNat ∧ c.toNat ≤ first + 9 := by
  unfold isDecimalDigit digitValue? at h
  split at h
  · rename_i digit
    simp only [Char.isDigit, Bool.and_eq_true, decide_eq_true_eq, UInt32.le_iff_toNat_le] at digit
    exact ⟨48, by decide, digit⟩
  split at h
  · cases h
  · rw [Option.isSome_map] at h
    obtain ⟨first, found⟩ := Option.isSome_iff_exists.1 h
    have range := List.find?_some found
    simp only [Bool.and_eq_true, decide_eq_true_eq] at range
    exact ⟨first, List.mem_of_find?_eq_some found, range⟩

theorem not_blank_of_isDecimalDigit {c : Char} (h : isDecimalDigit c = true) :
    isBlank c = false := by
  obtain ⟨first, listed, low, high⟩ := exists_first_of_isDecimalDigit h
  have apart : ∀ first ∈ digitZeros, ∀ range ∈ blankRanges, first + 9 < range.1 ∨
      range.2 < first := by decide
  rw [← Bool.not_eq_true, isBlank, inRanges_iff]
  rintro ⟨range, mem, above, below⟩
  rcases apart first listed range mem with before | after <;> omega

theorem digitValue?_lt {c : Char} {d : Nat} (h : digitValue? c = some d) : d < 10 := by
  unfold digitValue? at h
  split at h
  · rename_i digit
    cases h
    simp only [Char.isDigit, Bool.and_eq_true, decide_eq_true_eq, UInt32.le_iff_toNat_le] at digit
    have upper : c.toNat ≤ 57 := digit.2
    omega
  split at h
  · cases h
  · obtain ⟨base, found, rfl⟩ := Option.map_eq_some_iff.1 h
    have range := List.find?_some found
    simp only [Bool.and_eq_true, decide_eq_true_eq] at range
    omega

theorem digitsValue_lt {digits : List Nat} (h : ∀ d ∈ digits, d < 10) :
    digitsValue digits < Nat.pow 10 digits.length := by
  suffices run : ∀ n k, n < Nat.pow 10 k →
      digits.foldl (fun n d => 10 * n + d) n < Nat.pow 10 (k + digits.length) by
    simpa [digitsValue] using run 0 0 (by decide)
  induction digits with
  | nil => exact fun n k bound => bound
  | cons d rest ih =>
    intro n k bound
    have digit : d < 10 := h d List.mem_cons_self
    have next : 10 * n + d < Nat.pow 10 (k + 1) := by
      show 10 * n + d < Nat.pow 10 k * 10
      omega
    have run := ih (fun e he => h e (List.mem_cons_of_mem _ he)) _ _ next
    rwa [List.foldl_cons, List.length_cons, Nat.add_comm rest.length, ← Nat.add_assoc]

theorem length_toDigits_digitsValue {digits : List Nat} (h : ∀ d ∈ digits, d < 10) {count : Nat}
    (positive : 0 < count) (few : digits.length ≤ count) :
    (Nat.toDigits 10 (digitsValue digits)).length ≤ count := by
  rw [Nat.length_toDigits_le_iff (by decide) positive]
  exact Nat.lt_of_lt_of_le (digitsValue_lt h) (Nat.pow_le_pow_right (by decide) few)

/-! ## Runs of digits -/

/-- The number that a run of decimal digits denotes. -/
def numberIn (run : List Char) : Nat := digitsValue (run.filterMap digitValue?)

theorem length_filterMap_digitValue? {run : List Char} (h : ∀ c ∈ run, isDecimalDigit c = true) :
    (run.filterMap digitValue?).length = run.length := by
  induction run with
  | nil => rfl
  | cons c rest ih =>
    have ⟨first, others⟩ := List.forall_mem_cons.1 h
    obtain ⟨d, value⟩ := Option.isSome_iff_exists.1 first
    rw [List.filterMap_cons_some value, List.length_cons, List.length_cons, ih others]

/-- **The number of a run is written with no more digits than the run has**, or with one. -/
theorem length_toDigits_numberIn {run : List Char} (digits : ∀ c ∈ run, isDecimalDigit c = true)
    {count : Nat} (positive : 0 < count) (few : run.length ≤ count) :
    (Nat.toDigits 10 (numberIn run)).length ≤ count := by
  refine length_toDigits_digitsValue (fun d mem => ?_) positive ?_
  · obtain ⟨c, -, value⟩ := List.mem_filterMap.1 mem
    exact digitValue?_lt value
  · rwa [length_filterMap_digitValue? digits]

theorem digitValue?_of_isDigit {c : Char} (h : c.isDigit = true) :
    digitValue? c = some (c.toNat - 48) := if_pos h

theorem isDecimalDigit_of_mem_toDigits {n : Nat} {c : Char} (h : c ∈ Nat.toDigits 10 n) :
    isDecimalDigit c = true := by
  have digit : c.isDigit = true := Nat.isDigit_of_mem_toDigits (by decide) (by decide) h
  rw [isDecimalDigit, digitValue?_of_isDigit digit, Option.isSome_some]

/-- **A run of digits denotes the number that it was written for.** -/
theorem numberIn_toDigits (n : Nat) : numberIn (Nat.toDigits 10 n) = n := by
  have values : (Nat.toDigits 10 n).filterMap digitValue? =
      (Nat.toDigits 10 n).map fun c => c.toNat - 48 := by
    rw [← List.filterMap_eq_map]
    exact List.filterMap_congr fun c mem =>
      digitValue?_of_isDigit (Nat.isDigit_of_mem_toDigits (by decide) (by decide) mem)
  rw [numberIn, values]
  exact Json.valueOf_toDigits n

/-! ## Integers -/

theorem takeDigitRun_lt :
    ∀ {afterUnderscore : Bool} {s : List Char} {ds : List Nat} {rest : List Char},
    takeDigitRun afterUnderscore s = some (ds, rest) → ∀ d ∈ ds, d < 10
  | true, [], _, _, h => by cases h
  | false, [], _, _, h => by
    cases h
    simp
  | afterUnderscore, c :: more, ds, rest, h => by
    rw [takeDigitRun] at h
    split at h
    · rename_i value digit
      obtain ⟨⟨others, left⟩, run, e⟩ := Option.map_eq_some_iff.1 h
      cases e
      exact List.forall_mem_cons.2 ⟨digitValue?_lt digit, takeDigitRun_lt run⟩
    split at h
    · split at h
      · cases h
      · exact takeDigitRun_lt h
    split at h
    · cases h
    · cases h
      simp

/-- **An integer that is read has no more digits than are read.** -/
theorem readInteger_short (s : String) : Yields (readInteger s) IsShort := by
  unfold readInteger
  split
  split
  · exact Yields.throw _ _
  split
  · exact Yields.throw _ _
  rename_i ds rest run
  split
  · exact Yields.throw _ _
  split
  · exact Yields.throw _ _
  · rename_i few _
    have short := length_toDigits_digitsValue (takeDigitRun_lt run) (by decide) (Nat.not_lt.1 few)
    refine Yields.pure ?_
    unfold IsShort
    split
    · rwa [Int.natAbs_neg]
    · exact short

/-! ## Integers as they are written -/

theorem not_blank_digit {c : Char} (h : c.isDigit = true ∨ c = '-') :
    isBlank c = false ∧ isNumeralBlank c = false ∧ c ≠ '_' := by
  rcases h with digit | rfl
  · have blank : ∀ n, n < 58 → 48 ≤ n →
        isBlank (Char.ofNat n) = false ∧ isNumeralBlank (Char.ofNat n) = false ∧
          Char.ofNat n ≠ '_' := by decide
    simp only [Char.isDigit, Bool.and_eq_true, decide_eq_true_eq, UInt32.le_iff_toNat_le] at digit
    have bounds : 48 ≤ c.toNat ∧ c.toNat ≤ 57 := digit
    have named := blank c.toNat (by omega) bounds.1
    rwa [Char.ofNat_toNat] at named
  · decide

theorem mem_toString {n : Int} {c : Char} (h : c ∈ (toString n).toList) :
    c.isDigit = true ∨ c = '-' := by
  rw [Json.toList_toString_int, Json.intText] at h
  split at h
  · rcases List.mem_cons.1 h with rfl | digit
    · exact .inr rfl
    · exact .inl (Nat.isDigit_of_mem_toDigits (by decide) (by decide) digit)
  · exact .inl (Nat.isDigit_of_mem_toDigits (by decide) (by decide) h)

theorem takeDigitRun_digits {digits : List Char} (h : ∀ c ∈ digits, c.isDigit = true) :
    takeDigitRun false digits = some (digits.map fun c => c.toNat - 48, []) := by
  induction digits with
  | nil => rfl
  | cons c rest ih =>
    have ⟨first, others⟩ := List.forall_mem_cons.1 h
    have digit : digitValue? c = some (c.toNat - 48) := if_pos first
    rw [takeDigitRun, digit, ih others]
    rfl

theorem trimNumeral_toString (n : Int) : trimNumeral (toString n).toList = (toString n).toList := by
  have kept (s : List Char) (h : ∀ c ∈ s, isNumeralBlank c = false) :
      s.dropWhile isNumeralBlank = s := by
    cases s with
    | nil => rfl
    | cons c rest => simp [h c List.mem_cons_self]
  have plain : ∀ c ∈ (toString n).toList, isNumeralBlank c = false := fun c mem =>
    (not_blank_digit (mem_toString mem)).2.1
  rw [trimNumeral, kept _ plain, kept _ fun c mem => plain c (List.mem_reverse.1 mem),
    List.reverse_reverse]

/-- The digits of an integer are read if there are no more of them than are read. -/
theorem readInteger_toString_eq (n : Int) : readInteger (toString n) =
    if IsShort n then .ok n else .error (.tooLong (Nat.toDigits 10 n.natAbs).length) := by
  have digits : ∀ c ∈ Nat.toDigits 10 n.natAbs, c.isDigit = true := fun c mem =>
    Nat.isDigit_of_mem_toDigits (by decide) (by decide) mem
  have value : digitsValue ((Nat.toDigits 10 n.natAbs).map fun c => c.toNat - 48) = n.natAbs :=
    Json.valueOf_toDigits n.natAbs
  have signed : takeSign (toString n).toList = (decide (n < 0), Nat.toDigits 10 n.natAbs) := by
    rw [Json.toList_toString_int, Json.intText]
    by_cases negative : n < 0
    · simp [negative, takeSign]
    · rw [if_neg negative, decide_eq_false negative]
      unfold takeSign
      split
      · rename_i rest split
        exact absurd (digits '-' (split ▸ List.mem_cons_self)) (by decide)
      · rename_i rest split
        exact absurd (digits '+' (split ▸ List.mem_cons_self)) (by decide)
      · rfl
  unfold readInteger
  rw [trimNumeral_toString, signed]
  dsimp only
  split
  · rename_i rest split
    exact absurd (digits '_' (split ▸ List.mem_cons_self)) (by decide)
  · rw [takeDigitRun_digits digits]
    have filled : ((Nat.toDigits 10 n.natAbs).map fun c => c.toNat - 48).isEmpty = false := by simp
    dsimp only
    rw [List.length_map]
    by_cases short : IsShort n
    · have few : ¬(Nat.toDigits 10 n.natAbs).length > maxDigits := Nat.not_lt.2 short
      simp only [few, if_false, filled, List.isEmpty_nil, Bool.not_true, Bool.or_self,
        Bool.false_eq_true, value, decide_eq_true_eq, short, if_true]
      refine congrArg Except.ok ?_
      split <;> omega
    · have many : (Nat.toDigits 10 n.natAbs).length > maxDigits := Nat.lt_of_not_le short
      rw [if_pos many, if_neg short]
      rfl

/-- A power of ten with as many zeros as digits are read has one digit too many. -/
theorem not_isShort_pow {k : Nat} (many : maxDigits ≤ k) : ¬IsShort (Nat.pow 10 k : Nat) := by
  have positive : 0 < k := Nat.lt_of_lt_of_le (by decide) many
  have longer : k < (Nat.toDigits 10 (Nat.pow 10 k)).length := by
    rw [← Nat.not_le, Nat.length_toDigits_le_iff (by decide) positive]
    exact Nat.lt_irrefl _
  rw [IsShort, Int.natAbs_natCast, Nat.not_le]
  exact Nat.lt_of_le_of_lt many longer

/-- **An integer is read back from its digits**, if there are no more of them than are read. -/
theorem readInteger_toString {n : Int} (short : IsShort n) : readInteger (toString n) = .ok n := by
  rw [readInteger_toString_eq, if_pos short]

theorem trim_toString (n : Int) : trim (toString n) = toString n :=
  trim_eq_self (isTrimmed_of_all fun _ mem => (not_blank_digit (mem_toString mem)).1)

end SelectorCatalog.Text
