import SelectorCatalog.Text.Blank

/-!
# Texts without blanks around them

Trimming leaves a text that neither starts nor ends with a blank (`isTrimmed_trimList`), and such a
text is what trimming finds whatever blanks are put around it (`IsTrimmed.trimList_padded`). So a
trimmed text stays as it is when it is trimmed again.
-/

set_option autoImplicit false

namespace SelectorCatalog.Text

/-- A text that neither starts nor ends with a blank. -/
structure IsTrimmed (s : List Char) : Prop where
  opens : ∀ c, s.head? = some c → isBlank c = false
  ends : ∀ c, s.getLast? = some c → isBlank c = false

variable {s : List Char}

theorem isTrimmed_of_all (h : ∀ c ∈ s, isBlank c = false) : IsTrimmed s where
  opens c first := h c (List.mem_of_head? first)
  ends c last := h c (List.mem_of_getLast? last)

theorem IsTrimmed.reverse (h : IsTrimmed s) : IsTrimmed s.reverse where
  opens c first := h.ends c (by rwa [List.head?_reverse] at first)
  ends c last := h.opens c (by rwa [List.getLast?_reverse] at last)

theorem IsTrimmed.append {t : List Char} (h : IsTrimmed s) (h' : IsTrimmed t) :
    IsTrimmed (s ++ t) where
  opens c first := by
    rw [List.head?_append] at first
    rcases Option.or_eq_some_iff.1 first with own | ⟨-, later⟩
    · exact h.opens c own
    · exact h'.opens c later
  ends c last := by
    rw [List.getLast?_append] at last
    rcases Option.or_eq_some_iff.1 last with own | ⟨-, earlier⟩
    · exact h'.ends c own
    · exact h.ends c earlier

theorem IsTrimmed.dropWhile_append (h : IsTrimmed s) {after : List Char}
    (blank : ∀ c ∈ after, isBlank c = true) :
    (s ++ after).dropWhile isBlank = if s = [] then [] else s ++ after := by
  cases s with
  | nil =>
    have gone : (after ++ []).dropWhile isBlank = [] := List.dropWhile_append_of_pos blank
    simpa using gone
  | cons c rest => simp [h.opens c rfl]

/-- **Trimming finds a trimmed text between blanks.** -/
theorem IsTrimmed.trimList_padded (h : IsTrimmed s) {before after : List Char}
    (blank_before : ∀ c ∈ before, isBlank c = true) (blank_after : ∀ c ∈ after, isBlank c = true) :
    trimList (before ++ s ++ after) = s := by
  rw [trimList, List.append_assoc, List.dropWhile_append_of_pos blank_before,
    h.dropWhile_append blank_after]
  split
  · rename_i empty
    simp [empty]
  · rename_i filled
    have blank : ∀ c ∈ after.reverse, isBlank c = true :=
      fun c mem => blank_after c (List.mem_reverse.1 mem)
    have left : (s.reverse ++ []).dropWhile isBlank = _ := h.reverse.dropWhile_append (by simp)
    rw [List.append_nil, if_neg (by simpa using filled)] at left
    rw [List.reverse_append, List.dropWhile_append_of_pos blank, left, List.reverse_reverse]

theorem IsTrimmed.trimList_eq (h : IsTrimmed s) : trimList s = s := by
  have padded : trimList ([] ++ s ++ []) = s := h.trimList_padded (by simp) (by simp)
  simpa using padded

theorem head?_dropWhile_isBlank {c : Char} (h : (s.dropWhile isBlank).head? = some c) :
    isBlank c = false := by
  have first := List.head?_dropWhile_not isBlank s
  simpa [h] using first

/-- **What trimming leaves is trimmed.** -/
theorem isTrimmed_trimList (s : List Char) : IsTrimmed (trimList s) where
  opens c first := by
    -- The first character of what is left is the last one of a suffix, and stands at the end of it
    -- all.
    rw [trimList, List.head?_reverse] at first
    obtain ⟨front, split⟩ := List.dropWhile_suffix (l := (s.dropWhile isBlank).reverse) isBlank
    have last : (s.dropWhile isBlank).reverse.getLast? = some c := by
      rw [← split, List.getLast?_append, first]
      rfl
    rw [List.getLast?_reverse] at last
    exact head?_dropWhile_isBlank last
  ends c last := by
    rw [trimList, List.getLast?_reverse] at last
    exact head?_dropWhile_isBlank last

theorem isTrimmed_trim (s : String) : IsTrimmed (trim s).toList := by
  rw [trim, String.toList_ofList]
  exact isTrimmed_trimList _

theorem trim_eq_self {s : String} (h : IsTrimmed s.toList) : trim s = s := by
  rw [trim, h.trimList_eq, String.ofList_toList]

/-- Trimming adds no characters. -/
theorem mem_of_mem_trim {s : String} {c : Char} (mem : c ∈ (trim s).toList) : c ∈ s.toList := by
  rw [trim, String.toList_ofList, trimList, List.mem_reverse] at mem
  have later := (List.dropWhile_suffix isBlank).subset mem
  exact (List.dropWhile_suffix isBlank).subset (List.mem_reverse.1 later)

@[simp] theorem trim_trim (s : String) : trim (trim s) = trim s := trim_eq_self (isTrimmed_trim s)

end SelectorCatalog.Text
