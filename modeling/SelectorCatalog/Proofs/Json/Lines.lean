import SelectorCatalog.Proofs.Json.RoundTrip

/-!
# Documents over several lines are read back

* `reads_writeIndented` : a document is read from its text over several lines, whatever follows it;
* `parse_writeLines`    : the whole text is the document that it was written for;
* `carriageReturn_not_mem_writeLines` : the text has no carriage return, so it is the same in every
  file whose line breaks are read as line feeds.
-/

set_option autoImplicit false

namespace SelectorCatalog.Json

/-! ## Reading back -/

theorem isBlank_newLine (level : Nat) : IsBlank (newLine level).toList := by
  simp only [IsBlank, newLine, String.toList_ofList, List.mem_cons, List.mem_replicate]
  rintro c (rfl | ⟨-, rfl⟩)
  all_goals rfl

theorem writeIndented_list_nil (level : Nat) : writeIndented level (.list []) = "[]" := by
  rw [writeIndented]

theorem writeIndented_object_nil (level : Nat) : writeIndented level (.object []) = "\x7b\x7d" := by
  rw [writeIndented]

theorem toList_indentedItems (level : Nat) : ∀ {items : List Value}, items ≠ [] →
    (indentedItems level items).toList =
      (newLine level).toList ++ (',' :: (newLine level).toList).intercalate
        (items.map fun v => (writeIndented level v).toList)
  | [], some_left => absurd rfl some_left
  | [v], _ => by simp [indentedItems]
  | v :: w :: more, _ => by
    rw [indentedItems]
    · simp only [String.toList_append, toList_indentedItems level (List.cons_ne_nil w more)]
      simp [List.intercalate_cons_cons]
    · simp

theorem toList_indentedMembers (level : Nat) : ∀ {members : List (String × Value)}, members ≠ [] →
    (indentedMembers level members).toList =
      (newLine level).toList ++ (',' :: (newLine level).toList).intercalate
        (members.map fun m => memberText (m.1, (writeIndented level m.2).toList))
  | [], some_left => absurd rfl some_left
  | [(k, v)], _ => by simp [indentedMembers, writeText, memberText]
  | (k, v) :: m :: more, _ => by
    rw [indentedMembers]
    · simp only [String.toList_append, toList_indentedMembers level (List.cons_ne_nil m more)]
      simp [List.intercalate_cons_cons, writeText, memberText]
    · simp

/-- **A document is read from its text over several lines**, whatever follows it. -/
theorem reads_writeIndented {v : Value} (h : Plain v) (level : Nat) :
    Reads v (writeIndented level v).toList := by
  induction h generalizing level with
  | null => exact reads_write .null
  | bool b => exact reads_write (.bool b)
  | int small => exact reads_write (.int small)
  | text s => exact reads_write (.text s)
  | @list items _ ih =>
    by_cases nonempty : items = []
    · subst nonempty
      rw [writeIndented_list_nil]
      exact reads_list_nil
    · have parts := reads_list (isBlank_newLine (level + 1)) (isBlank_newLine (level + 1))
        (isBlank_newLine level) (items.map fun v => (v, (writeIndented (level + 1) v).toList))
        (by
          intro p hp
          obtain ⟨w, hw, rfl⟩ := List.mem_map.1 hp
          exact ih w hw (level + 1))
        (by simpa using nonempty)
      rw [writeIndented]
      · simpa [Function.comp_def, toList_indentedItems (level + 1) nonempty] using parts
      · exact nonempty
  | @object members distinct _ ih =>
    by_cases nonempty : members = []
    · subst nonempty
      rw [writeIndented_object_nil]
      exact reads_object_nil
    · have parts := reads_object (isBlank_newLine (level + 1)) (isBlank_newLine (level + 1))
        (isBlank_newLine level) (members.map fun m =>
          (m.1, m.2, (writeIndented (level + 1) m.2).toList))
        (by
          intro p hp
          obtain ⟨m, hm, rfl⟩ := List.mem_map.1 hp
          exact ih m hm (level + 1))
        (by simpa using nonempty)
        (by simpa [Function.comp_def, Assoc.names] using distinct)
      rw [writeIndented]
      · simpa [Function.comp_def, toList_indentedMembers (level + 1) nonempty] using parts
      · exact nonempty

/-- **A document over several lines is read back as it was.** -/
theorem parse_writeLines {v : Value} (h : Plain v) : parse (writeLines v) = .ok v :=
  parse_of_reads (reads_writeIndented h 0)

/-! ## Line breaks -/

theorem hexDigit_ne : ∀ n, n < 16 → Text.hexDigit n ≠ '\r' := by decide

theorem carriageReturn_not_mem_hex (width n : Nat) : '\r' ∉ Text.hex width n := by
  intro mem
  obtain ⟨d, small, same⟩ := Text.exists_of_mem_hex mem
  exact hexDigit_ne d small same.symm

theorem carriageReturn_not_mem_writtenChar (c : Char) : '\r' ∉ writtenChar c := by
  have escape (n : Nat) : '\r' ∉ unitEscape n := by
    simp [unitEscape, carriageReturn_not_mem_hex]
  unfold writtenChar
  split
  · rename_i mark
    rcases (by simpa using mark : c = '"' ∨ c = '\\') with rfl | rfl <;> decide
  iterate 5
    split
    · decide
  split
  · rename_i plain
    rw [List.mem_singleton]
    rintro rfl
    exact absurd plain (by decide)
  unfold pointEscape
  split
  · exact escape _
  · rw [List.mem_append, not_or]
    exact ⟨escape _, escape _⟩

theorem carriageReturn_not_mem_writeText (s : String) : '\r' ∉ (writeText s).toList := by
  simp [writeText, carriageReturn_not_mem_writtenChar]

theorem carriageReturn_not_mem_int (n : Int) : '\r' ∉ (toString n).toList := by
  have digits : '\r' ∉ Nat.toDigits 10 n.natAbs := fun mem =>
    absurd (Nat.isDigit_of_mem_toDigits (by decide) (by decide) mem) (by decide)
  rw [toList_toString_int, intText]
  split
  · simp [digits]
  · exact digits

theorem not_mem_intercalate {c : Char} {sep : List Char} (h : c ∉ sep) :
    ∀ {texts : List (List Char)}, (∀ s ∈ texts, c ∉ s) → c ∉ sep.intercalate texts
  | [], _ => by simp
  | [s], each => by simpa using each
  | s :: t :: more, each => by
    have ⟨first, others⟩ := List.forall_mem_cons.1 each
    rw [List.intercalate_cons_cons, List.mem_append, List.mem_append, not_or, not_or]
    exact ⟨⟨first, h⟩, not_mem_intercalate h others⟩

/-- **A document over several lines has no carriage return.** -/
theorem carriageReturn_not_mem_writeIndented {v : Value} (h : Plain v) (level : Nat) :
    '\r' ∉ (writeIndented level v).toList := by
  have line (level : Nat) : '\r' ∉ (newLine level).toList := by simp [newLine]
  have gap (level : Nat) : '\r' ∉ ',' :: (newLine level).toList := by simp [newLine]
  induction h generalizing level with
  | null =>
    show '\r' ∉ (write .null).toList
    decide
  | bool b =>
    show '\r' ∉ (write (.bool b)).toList
    revert b
    decide
  | int small => exact carriageReturn_not_mem_int _
  | text s => exact carriageReturn_not_mem_writeText s
  | @list items _ ih =>
    by_cases nonempty : items = []
    · subst nonempty
      rw [writeIndented_list_nil]
      decide
    · rw [writeIndented]
      · simp only [String.toList_append, toList_indentedItems (level + 1) nonempty, List.mem_append,
          not_or]
        refine ⟨⟨⟨by decide, line _, not_mem_intercalate (gap _) ?_⟩, line _⟩, by decide⟩
        intro s hs
        obtain ⟨w, hw, rfl⟩ := List.mem_map.1 hs
        exact ih w hw (level + 1)
      · exact nonempty
  | @object members distinct _ ih =>
    by_cases nonempty : members = []
    · subst nonempty
      rw [writeIndented_object_nil]
      decide
    · rw [writeIndented]
      · simp only [String.toList_append, toList_indentedMembers (level + 1) nonempty,
          List.mem_append, not_or]
        refine ⟨⟨⟨by decide, line _, not_mem_intercalate (gap _) ?_⟩, line _⟩, by decide⟩
        intro s hs
        obtain ⟨m, hm, rfl⟩ := List.mem_map.1 hs
        simp [memberText, carriageReturn_not_mem_writtenChar, ih m hm (level + 1)]
      · exact nonempty

theorem carriageReturn_not_mem_writeLines {v : Value} (h : Plain v) :
    '\r' ∉ (writeLines v).toList :=
  carriageReturn_not_mem_writeIndented h 0

end SelectorCatalog.Json
