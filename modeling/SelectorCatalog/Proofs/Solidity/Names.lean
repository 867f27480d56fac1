import Mathlib.Data.List.TakeWhile
import SelectorCatalog.Solidity.Declaration

/-!
# Names of contracts

A name that sources declare is an identifier: it is not empty and has neither blanks nor colons
(`isIdentifier_of_primaryOf?`). The name that a qualified one ends in is what stands after its last
colon (`unqualified_append`); this may be empty and may start with a blank.
-/

set_option autoImplicit false

namespace SelectorCatalog

/-! ## Characters of words -/

namespace Text

/-- No interval of word characters meets one of blanks. -/
theorem wordRanges_apart :
    (wordRanges.all fun word => blankRanges.all fun blank =>
      Nat.blt word.2 blank.1 || Nat.blt blank.2 word.1) = true := by decide +kernel

theorem isBlank_of_wordRanges {n : Nat} (h : inRanges wordRanges n = true) :
    inRanges blankRanges n = false := by
  obtain ⟨word, there, least, greatest⟩ := inRanges_iff.1 h
  rw [← Bool.not_eq_true, inRanges_iff]
  rintro ⟨blank, mem, low, high⟩
  have apart := List.all_eq_true.1 (List.all_eq_true.1 wordRanges_apart word there) blank mem
  simp only [Bool.or_eq_true, Nat.blt_eq] at apart
  omega

theorem isWord_ascii : ∀ n, n < 128 → isWord (Char.ofNat n) = true →
    isBlank (Char.ofNat n) = false ∧ Char.ofNat n ≠ ':' := by decide +kernel

/-- A word character is neither a blank nor a colon. -/
theorem not_blank_of_isWord {c : Char} (h : isWord c = true) : isBlank c = false ∧ c ≠ ':' := by
  by_cases ascii : c.val < 128
  · have small : c.toNat < 128 := UInt32.lt_iff_toNat_lt.1 ascii
    have known := isWord_ascii c.toNat small
    rw [Char.ofNat_toNat] at known
    exact known h
  · rw [isWord, if_neg ascii] at h
    refine ⟨isBlank_of_wordRanges h, ?_⟩
    rintro rfl
    exact ascii (by decide)

end Text

namespace Solidity

/-! ## Identifiers -/

/-- A name that is not empty and has neither blanks nor colons. -/
structure IsIdentifier (name : String) : Prop where
  filled : name ≠ ""
  inner : ∀ c ∈ name.toList, Text.isBlank c = false ∧ c ≠ ':'

theorem inner_of_continuesName {c : Char} (h : continuesName c = true) :
    Text.isBlank c = false ∧ c ≠ ':' := by
  rw [continuesName, Bool.or_eq_true, beq_iff_eq] at h
  rcases h with word | rfl
  · exact Text.not_blank_of_isWord word
  · decide

theorem continuesName_of_startsName {c : Char} (h : startsName c = true) :
    continuesName c = true := by
  rw [startsName, Bool.or_eq_true, Bool.or_eq_true, beq_iff_eq, beq_iff_eq] at h
  rcases h with (letter | rfl) | rfl
  · have ascii : c.val < 128 := by
      have either : (decide (c.val ≥ 'A'.val ∧ c.val ≤ 'Z'.val) ||
          decide (c.val ≥ 'a'.val) && decide (c.val ≤ 'z'.val)) = true := letter
      simp only [Bool.or_eq_true, Bool.and_eq_true, decide_eq_true_eq, ge_iff_le,
        UInt32.le_iff_toNat_le] at either
      rw [UInt32.lt_iff_toNat_lt]
      have upper : 'Z'.val.toNat = 90 := rfl
      have lower : 'z'.val.toNat = 122 := rfl
      have bound : (128 : UInt32).toNat = 128 := rfl
      omega
    simp [continuesName, Text.isWord, ascii, Char.isAlphanum, letter]
  · decide
  · decide

theorem isIdentifier_of_declarationOf? {kind : DeclarationKind} {s after : List Char}
    {d : Declaration} (h : declarationOf? kind s = some (d, after)) : IsIdentifier d.name := by
  unfold declarationOf? at h
  obtain ⟨rest, -, found⟩ := Option.bind_eq_some_iff.1 h
  split at found
  · rename_i c tail split
    split at found
    · rename_i starts
      obtain ⟨rfl, -⟩ := Prod.mk.inj (Option.some.inj found)
      have first := continuesName_of_startsName (Bool.and_eq_true_iff.1 starts).2
      refine ⟨by simp, fun x mem => inner_of_continuesName ?_⟩
      rw [String.toList_ofList] at mem
      rcases List.mem_cons.1 mem with rfl | later
      · exact first
      · exact List.mem_takeWhile_imp later
    · cases found
  · cases found

theorem isIdentifier_of_declarationAt? {s after : List Char} {d : Declaration}
    (h : declarationAt? s = some (d, after)) : IsIdentifier d.name := by
  obtain ⟨kind, -, found⟩ := List.exists_of_findSome?_eq_some h
  exact isIdentifier_of_declarationOf? found

theorem isIdentifier_of_mem_scan {fuel : Nat} {insideWord : Bool} {s : List Char} {d : Declaration}
    (h : d ∈ scanDeclarations fuel insideWord s) : IsIdentifier d.name := by
  fun_induction scanDeclarations fuel insideWord s with
  | case1 => cases h
  | case2 => cases h
  | case3 insideWord fuel c rest e after found ih =>
    rcases List.mem_cons.1 h with rfl | later
    · split at found
      · cases found
      · exact isIdentifier_of_declarationAt? found
    · exact ih later
  | case4 insideWord fuel c rest _ ih => exact ih h

/-- **A name that sources declare is an identifier.** -/
theorem isIdentifier_of_primaryOf? {contents : List String} {name : String}
    (h : primaryOf? (declaredIn contents) = some name) : IsIdentifier name := by
  have each : ∀ d ∈ declaredIn contents, IsIdentifier d.name := by
    intro d mem
    obtain ⟨content, -, there⟩ := List.mem_flatMap.1 mem
    exact isIdentifier_of_mem_scan there
  unfold primaryOf? at h
  split at h
  · rename_i d last
    obtain rfl := Option.some.inj h
    exact each d (List.mem_filter.1 (List.mem_of_getLast? last)).1
  · obtain ⟨d, last, rfl⟩ := Option.map_eq_some_iff.1 h
    exact each d (List.mem_of_getLast? last)

/-! ## Qualified names -/

theorem colon_not_mem_unqualified (name : String) : ':' ∉ (unqualified name).toList := by
  rw [unqualified, String.toList_ofList, List.mem_reverse]
  intro mem
  have kept := List.mem_takeWhile_imp mem
  simp at kept

theorem unqualified_of_not_mem {name : String} (h : ':' ∉ name.toList) :
    unqualified name = name := by
  have whole : name.toList.reverse.takeWhile (· != ':') = name.toList.reverse := by
    rw [List.takeWhile_eq_self_iff]
    intro c mem
    rw [bne_iff_ne]
    rintro rfl
    exact h (List.mem_reverse.1 mem)
  rw [unqualified, whole, List.reverse_reverse, String.ofList_toList]

/-- **The name without its qualifier** is what stands after the last colon. -/
theorem unqualified_append {name : String} {qualifier last : List Char}
    (split : name.toList = qualifier ++ ':' :: last) (no_colon : ':' ∉ last) :
    unqualified name = String.ofList last := by
  have kept : ∀ c ∈ last.reverse, (c != ':') = true := by
    intro c mem
    rw [bne_iff_ne]
    rintro rfl
    exact no_colon (List.mem_reverse.1 mem)
  rw [unqualified, split, List.reverse_append, List.reverse_cons, List.append_assoc,
    List.takeWhile_append_of_pos kept, List.singleton_append, List.takeWhile_cons_of_neg (by simp),
    List.append_nil, List.reverse_reverse]

theorem exists_qualifier {name : String} (h : ':' ∈ name.toList) :
    ∃ qualifier last, name.toList = qualifier ++ ':' :: last ∧ ':' ∉ last := by
  obtain ⟨after, before, split, no_colon⟩ := List.eq_append_cons_of_mem (List.mem_reverse.2 h)
  refine ⟨before.reverse, after.reverse, ?_, by simpa using no_colon⟩
  have back := congrArg List.reverse split
  simpa using back

end Solidity

end SelectorCatalog
