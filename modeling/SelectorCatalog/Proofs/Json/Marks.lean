import SelectorCatalog.Proofs.Json.RoundTrip

/-!
# Bars in written documents

A bar stands in a written document only within a text, where every quote is escaped. So no bar in it
is followed by an object with a first name in `e`: the quote before the name would be the one that
closes the text, and no name follows that (`unmarked_write`). A document that starts with such an
object is therefore told apart from what stands before it, if only a bar parts the two
(`eq_of_bar_append`).
-/

set_option autoImplicit false

namespace SelectorCatalog.Json

/-! ## Texts up to a bar -/

/-- What stands before a bar goes beyond a text without bars. -/
theorem exists_front {s after front back : List Char} (no_bar : '|' ∉ s)
    (split : s ++ after = front ++ '|' :: back) : ∃ rest, front = s ++ rest := by
  obtain ⟨rest, same, -⟩ | ⟨rest, same, tail⟩ := List.append_eq_append_iff.1 split
  · exact ⟨rest, same⟩
  · cases rest with
    | nil => exact ⟨[], by simpa using same.symm⟩
    | cons c rest =>
      obtain ⟨rfl, -⟩ := List.cons.inj tail
      exact absurd (same ▸ List.mem_append_right _ List.mem_cons_self) no_bar

/-- Two texts without bars that are the same up to their first bar. -/
theorem append_bar_inj {s t after others : List Char} (no_bar : '|' ∉ s) (no_bar' : '|' ∉ t)
    (same : s ++ '|' :: after = t ++ '|' :: others) : s = t ∧ after = others := by
  obtain ⟨rest, rfl⟩ := exists_front no_bar same
  rw [List.append_assoc, List.append_cancel_left_eq] at same
  cases rest with
  | nil => exact ⟨(List.append_nil s).symm, (List.cons.inj same).2⟩
  | cons c rest =>
    obtain ⟨rfl, -⟩ := List.cons.inj same
    exact absurd (List.mem_append_right _ List.mem_cons_self) no_bar'

/-! ## Texts without a mark -/

/-- A bar and the start of an object whose first name starts with `e`, before a rest. -/
def marked (rest : List Char) : List Char := '|' :: '\x7b' :: '"' :: 'e' :: rest

/-- A text that does not start with `e`, and in which no mark starts, also if it is followed by
something that does not start with `e` either. -/
structure Unmarked (s : List Char) : Prop where
  opens : s.head? ≠ some 'e'
  clear : ∀ {after front back : List Char}, after.head? ≠ some 'e' →
    s ++ after = front ++ marked back →
    ∃ rest, front = s ++ rest

namespace Unmarked

theorem nil : Unmarked [] := ⟨by simp, fun _ _ => ⟨_, rfl⟩⟩

theorem of_not_mem {s : List Char} (opens : s.head? ≠ some 'e') (no_bar : '|' ∉ s) : Unmarked s :=
  ⟨opens, fun _ split => exists_front no_bar split⟩

theorem head?_append {s after : List Char} (h : Unmarked s) (other : after.head? ≠ some 'e') :
    (s ++ after).head? ≠ some 'e' := by
  cases s with
  | nil => exact other
  | cons c rest => exact h.opens

theorem append {s t : List Char} (first : Unmarked s) (second : Unmarked t) :
    Unmarked (s ++ t) := by
  refine ⟨first.head?_append second.opens, ?_⟩
  intro after front back other split
  rw [List.append_assoc] at split
  obtain ⟨rest, rfl⟩ := first.clear (second.head?_append other) split
  rw [List.append_assoc, List.append_cancel_left_eq] at split
  obtain ⟨last, rfl⟩ := second.clear other split
  exact ⟨last, (List.append_assoc s t last).symm⟩

theorem intercalate {sep : List Char} (between : Unmarked sep) :
    ∀ {pieces : List (List Char)}, (∀ p ∈ pieces, Unmarked p) → Unmarked (sep.intercalate pieces)
  | [], _ => nil
  | [p], each => by
    rw [List.intercalate_singleton]
    exact each p List.mem_cons_self
  | p :: q :: more, each => by
    have ⟨first, others⟩ := List.forall_mem_cons.1 each
    rw [List.intercalate_cons_cons]
    exact (first.append between).append (intercalate between others)

end Unmarked

/-! ## Written texts -/

theorem hexDigit_ne_bar : ∀ n, n < 16 → '|' ≠ Text.hexDigit n := by decide

theorem bar_not_mem_unitEscape (n : Nat) : '|' ∉ unitEscape n := by
  have digits : '|' ∉ Text.hex 4 n := by
    intro mem
    obtain ⟨d, small, same⟩ := Text.exists_of_mem_hex mem
    exact hexDigit_ne_bar d small same
  simp [unitEscape, digits]

/-- A character is written as itself, if it is no quote, or as an escape, which has no bar. -/
theorem writtenChar_cases (c : Char) :
    (writtenChar c = [c] ∧ c ≠ '"') ∨ ∃ more, writtenChar c = '\\' :: more ∧ '|' ∉ more := by
  unfold writtenChar
  split
  · rename_i mark
    rcases (by simpa using mark : c = '"' ∨ c = '\\') with rfl | rfl <;>
      exact .inr ⟨_, rfl, by decide⟩
  rename_i marks
  simp only [Bool.or_eq_true, beq_iff_eq, not_or] at marks
  iterate 5
    split
    · exact .inr ⟨_, rfl, by decide⟩
  split
  · exact .inl ⟨rfl, marks.1⟩
  unfold pointEscape
  split
  · exact .inr ⟨_, rfl, fun mem => bar_not_mem_unitEscape _ (List.mem_cons_of_mem _ mem)⟩
  · have pair (m n : Nat) : '|' ∉ unitEscape m ++ unitEscape n := by simp [bar_not_mem_unitEscape]
    exact .inr ⟨_, rfl, fun mem => pair _ _ (List.mem_cons_of_mem _ mem)⟩

/-- After a bar in the body of a written text comes no brace before a quote: this would close the
text, and no name follows. -/
theorem ne_marked {after back : List Char} (other : after.head? ≠ some 'e') (cs : List Char) :
    '|' :: (cs.flatMap writtenChar ++ '"' :: after) ≠ marked back := by
  intro same
  have brace := (List.cons.inj same).2
  cases cs with
  | nil => cases brace
  | cons c cs =>
    rw [List.flatMap_cons, List.append_assoc] at brace
    obtain ⟨plain, -⟩ | ⟨more, escaped, -⟩ := writtenChar_cases c
    · rw [plain, List.singleton_append] at brace
      have quote := (List.cons.inj brace).2
      cases cs with
      | nil => exact other (congrArg List.head? (List.cons.inj quote).2)
      | cons d cs =>
        rw [List.flatMap_cons, List.append_assoc] at quote
        obtain ⟨plain, no_quote⟩ | ⟨more, escaped, -⟩ := writtenChar_cases d
        · rw [plain, List.singleton_append] at quote
          exact no_quote (List.cons.inj quote).1
        · rw [escaped] at quote
          cases quote
    · rw [escaped] at brace
      cases brace

/-- In the body of a written text, up to the quote that closes it, there is no mark. -/
theorem exists_front_written {after back : List Char} (other : after.head? ≠ some 'e')
    (cs : List Char) :
    ∀ {front : List Char}, cs.flatMap writtenChar ++ '"' :: after = front ++ marked back →
      ∃ rest, front = cs.flatMap writtenChar ++ '"' :: rest := by
  induction cs with
  | nil =>
    intro front split
    cases front with
    | nil => cases split
    | cons d front =>
      obtain ⟨rfl, -⟩ := List.cons.inj split
      exact ⟨front, rfl⟩
  | cons c cs ih =>
    intro front split
    rw [List.flatMap_cons, List.append_assoc] at split
    by_cases bar : c = '|'
    · subst bar
      cases front with
      | nil => exact absurd split (ne_marked other cs)
      | cons d front =>
        obtain ⟨same, tail⟩ := List.cons.inj split
        obtain ⟨rest, rfl⟩ := ih tail
        exact ⟨rest, same ▸ rfl⟩
    · have no_bar : '|' ∉ writtenChar c := by
        obtain ⟨plain, -⟩ | ⟨more, escaped, clear⟩ := writtenChar_cases c
        · simpa [plain] using Ne.symm bar
        · simpa [escaped] using clear
      obtain ⟨rest, rfl⟩ := exists_front no_bar split
      rw [List.append_assoc, List.append_cancel_left_eq] at split
      obtain ⟨last, rfl⟩ := ih split
      exact ⟨last, by rw [List.flatMap_cons, List.append_assoc]⟩

theorem unmarked_writeText (s : String) : Unmarked (writeText s).toList := by
  rw [writeText, String.toList_ofList]
  refine ⟨by simp, ?_⟩
  intro after front back other split
  cases front with
  | nil => cases split
  | cons d front =>
    rw [List.cons_append, List.cons_append, List.append_assoc] at split
    obtain ⟨same, tail⟩ := List.cons.inj split
    obtain ⟨rest, rfl⟩ := exists_front_written other s.toList tail
    exact ⟨rest, by simp [← same]⟩

/-! ## Written documents -/

theorem unmarked_int (n : Int) : Unmarked (toString n).toList := by
  have digits : ∀ c ∈ Nat.toDigits 10 n.natAbs, c.isDigit = true := fun c mem =>
    Nat.isDigit_of_mem_toDigits (by decide) (by decide) mem
  have other (c : Char) (no_digit : c.isDigit = false) : c ∉ Nat.toDigits 10 n.natAbs := by
    intro mem
    exact absurd (digits c mem) (by simp [no_digit])
  rw [toList_toString_int, intText]
  split
  · exact .of_not_mem (by simp) (by simp [other '|' (by decide)])
  · exact .of_not_mem (fun first => other 'e' (by decide) (List.mem_of_head? first))
      (other '|' (by decide))

theorem unmarked_memberText (k : String) {s : List Char} (h : Unmarked s) :
    Unmarked (memberText (k, s)) := by
  have colon : Unmarked [':', ' '] := .of_not_mem (by decide) (by decide)
  have whole := ((unmarked_writeText k).append colon).append h
  simpa [writeText, memberText] using whole

/-- **No mark stands in a written document.** -/
theorem unmarked_write {v : Value} (h : Plain v) : Unmarked (write v).toList := by
  have comma : Unmarked [',', ' '] := .of_not_mem (by decide) (by decide)
  have punctuation (c : Char) (opens : c ≠ 'e') (no_bar : c ≠ '|') : Unmarked [c] :=
    .of_not_mem (by simpa using opens) (by simpa using no_bar.symm)
  induction h with
  | null =>
    rw [write]
    exact .of_not_mem (by decide) (by decide)
  | bool b =>
    rw [write]
    cases b <;> exact .of_not_mem (by decide) (by decide)
  | int _ =>
    rw [write]
    exact unmarked_int _
  | text s =>
    rw [write]
    exact unmarked_writeText s
  | @list items _ ih =>
    rw [write, String.toList_append, String.toList_append, toList_writeItems]
    refine ((punctuation '[' (by decide) (by decide)).append (comma.intercalate ?_)).append
      (punctuation ']' (by decide) (by decide))
    intro p mem
    obtain ⟨v, there, rfl⟩ := List.mem_map.1 mem
    exact ih v there
  | @object members _ _ ih =>
    rw [write, String.toList_append, String.toList_append, toList_writeMembers]
    refine ((punctuation '\x7b' (by decide) (by decide)).append (comma.intercalate ?_)).append
      (punctuation '\x7d' (by decide) (by decide))
    intro p mem
    obtain ⟨m, there, rfl⟩ := List.mem_map.1 mem
    exact unmarked_memberText m.1 (ih m there)

/-- **Texts that part before a document at a bar are the same**, and so are the documents, if they
start with an object whose first name starts with `e` and have no mark. -/
theorem eq_of_bar_append {s t front front' : List Char} (clear : Unmarked s) (clear' : Unmarked t)
    (starts : ∃ more, s = '\x7b' :: '"' :: 'e' :: more)
    (starts' : ∃ more, t = '\x7b' :: '"' :: 'e' :: more)
    (same : front ++ '|' :: s = front' ++ '|' :: t) : front = front' ∧ s = t := by
  -- Otherwise one of the documents has the other one, after a bar, for an end.
  have shorter {s t rest : List Char} (clear : Unmarked s) (starts : ∃ more,
      t = '\x7b' :: '"' :: 'e' :: more) (tail : s = rest ++ '|' :: t) : False := by
    obtain ⟨more, rfl⟩ := starts
    have whole : s ++ [] = rest ++ marked more := by
      rw [List.append_nil]
      exact tail
    obtain ⟨last, same⟩ := clear.clear (by simp) whole
    have length := congrArg List.length tail
    simp only [same, List.length_append, List.length_cons] at length
    omega
  obtain ⟨rest, rfl, tail⟩ | ⟨rest, rfl, tail⟩ := List.append_eq_append_iff.1 same
  · cases rest with
    | nil => exact ⟨(List.append_nil _).symm, (List.cons.inj tail).2⟩
    | cons c rest => exact (shorter clear starts' (List.cons.inj tail).2).elim
  · cases rest with
    | nil => exact ⟨List.append_nil _, (List.cons.inj tail).2.symm⟩
    | cons c rest => exact (shorter clear' starts (List.cons.inj tail).2).elim

end SelectorCatalog.Json
