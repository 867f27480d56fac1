/-!
# First items

The first item of a list that has a property. It is determined by the list and the property
(`IsFirst.unique`), and stays the first when the list goes on (`IsFirst.append`).
-/

set_option autoImplicit false

namespace SelectorCatalog

/-- The first item of a list that has a property. -/
def IsFirst {α : Type} (P : α → Prop) (items : List α) (a : α) : Prop :=
  ∃ before after, items = before ++ a :: after ∧ P a ∧ ∀ b ∈ before, ¬P b

namespace IsFirst

variable {α : Type} {P : α → Prop} {items : List α} {a b : α}

theorem mem (h : IsFirst P items a) : a ∈ items := by
  obtain ⟨before, after, rfl, -⟩ := h
  simp

theorem holds (h : IsFirst P items a) : P a := by
  obtain ⟨-, -, -, holds, -⟩ := h
  exact holds

theorem append (h : IsFirst P items a) (more : List α) : IsFirst P (items ++ more) a := by
  obtain ⟨before, after, rfl, holds, fresh⟩ := h
  exact ⟨before, after ++ more, by simp, holds, fresh⟩

theorem last (holds : P a) (fresh : ∀ b ∈ items, ¬P b) : IsFirst P (items ++ [a]) a :=
  ⟨items, [], rfl, holds, fresh⟩

/-- The first item with a property is the first with any narrower property that it has. -/
theorem narrow {Q : α → Prop} (h : IsFirst P items a) (holds : Q a) (narrower : ∀ b, Q b → P b) :
    IsFirst Q items a := by
  obtain ⟨before, after, rfl, -, fresh⟩ := h
  exact ⟨before, after, rfl, holds, fun b mem wider => fresh b mem (narrower b wider)⟩

theorem unique (h : IsFirst P items a) (g : IsFirst P items b) : a = b := by
  obtain ⟨before, after, rfl, here, fresh⟩ := h
  obtain ⟨prior, later, same, there, unseen⟩ := g
  rcases List.append_eq_append_iff.1 same with ⟨between, rfl, next⟩ | ⟨between, rfl, next⟩
  · cases between with
    | nil => exact (List.cons.inj next).1
    | cons c rest => exact absurd ((List.cons.inj next).1 ▸ here) (unseen c (by simp))
  · cases between with
    | nil => exact (List.cons.inj next).1.symm
    | cons c rest => exact absurd ((List.cons.inj next).1 ▸ there) (fresh c (by simp))

end IsFirst

theorem exists_isFirst {α : Type} {P : α → Prop} {items : List α} (h : ∃ a ∈ items, P a) :
    ∃ a, IsFirst P items a := by
  induction items with
  | nil => simp at h
  | cons a rest ih =>
    by_cases here : P a
    · exact ⟨a, [], rest, rfl, here, by simp⟩
    · obtain ⟨b, before, after, rfl, holds, fresh⟩ := ih (by simpa [here] using h)
      exact ⟨b, a :: before, after, rfl, holds, List.forall_mem_cons.2 ⟨here, fresh⟩⟩

end SelectorCatalog
