/-!
# Texts in parts

A separator parts a text: no part holds it (`not_mem_of_mem_splitOn`), and every other character of
the text stands in a part (`exists_mem_splitOn`).
-/

set_option autoImplicit false

namespace SelectorCatalog.Text

variable {separator : Char}

theorem not_mem_of_mem_splitOn {s part : List Char} (h : part ∈ s.splitOn separator) :
    separator ∉ part := by
  induction s generalizing part with
  | nil =>
    rw [List.splitOn_nil, List.mem_singleton] at h
    exact h ▸ List.not_mem_nil
  | cons c rest ih =>
    obtain ⟨first, others, e⟩ := List.exists_cons_of_ne_nil (List.splitOn_ne_nil separator rest)
    rw [List.splitOn_cons_eq_if_modifyHead, e] at h
    rw [e] at ih
    split at h
    · rcases List.mem_cons.1 h with rfl | old
      · exact List.not_mem_nil
      · exact ih old
    · rename_i other
      rcases List.mem_cons.1 h with rfl | old
      · rw [List.mem_cons, not_or]
        exact ⟨fun same => other (beq_iff_eq.2 same.symm), ih List.mem_cons_self⟩
      · exact ih (List.mem_cons_of_mem _ old)

/-- A character that does not part a text stands in a part of it. -/
theorem exists_mem_splitOn {s : List Char} {c : Char} (mem : c ∈ s) (other : c ≠ separator) :
    ∃ part ∈ s.splitOn separator, c ∈ part := by
  induction s with
  | nil => cases mem
  | cons d rest ih =>
    obtain ⟨first, others, e⟩ := List.exists_cons_of_ne_nil (List.splitOn_ne_nil separator rest)
    rw [e] at ih
    rw [List.splitOn_cons_eq_if_modifyHead, e]
    split
    · rename_i parts
      rcases List.mem_cons.1 mem with rfl | later
      · exact absurd (beq_iff_eq.1 parts) other
      · obtain ⟨part, here, inside⟩ := ih later
        exact ⟨part, List.mem_cons_of_mem _ here, inside⟩
    · rcases List.mem_cons.1 mem with rfl | later
      · exact ⟨c :: first, List.mem_cons_self, List.mem_cons_self⟩
      · obtain ⟨part, here, inside⟩ := ih later
        rcases List.mem_cons.1 here with rfl | old
        · exact ⟨d :: part, List.mem_cons_self, List.mem_cons_of_mem _ inside⟩
        · exact ⟨part, List.mem_cons_of_mem _ old, inside⟩

end SelectorCatalog.Text
