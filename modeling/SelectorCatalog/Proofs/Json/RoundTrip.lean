import SelectorCatalog.Fault
import SelectorCatalog.Json.Writer

/-!
# Written documents are read back

* `readText_written`   : a written text is read up to its closing quote;
* `readNumber_intText` : an integer is read up to what ends it;
* `reads_list`, `reads_object` : lists and objects are read from the texts of their parts, whatever
  blanks the layout puts between them;
* `parse_write`        : a document on one line is read back as it was.

The reader is given the text and what follows it, and its fuel is bounded by the length of the text.
Doubles are left out; integers are those that have no more digits than are read.
-/

set_option autoImplicit false

namespace SelectorCatalog

namespace Json

/-! ## Texts -/

theorem hexValue?_hexDigit : ∀ n, n < 16 → Text.hexValue? (Text.hexDigit n) = some n := by decide

/-- The four digits of an escape are read back as the number that they were written for. -/
theorem hex_four {n : Nat} (h : n < 0x10000) :
    ∃ a b c d, Text.hex 4 n = [a, b, c, d] ∧ hexQuad? a b c d = some n := by
  have value (m : Nat) : Text.hexValue? (Text.hexDigit (m % 16)) = some (m % 16) :=
    hexValue?_hexDigit _ (Nat.mod_lt _ (by decide))
  refine ⟨_, _, _, _, rfl, ?_⟩
  simp only [hexQuad?, value, Option.bind_eq_bind, Option.bind_some, Option.pure_def,
    Option.some.injEq]
  omega

theorem readText_unicode (start : List Char) {a b c d : Char} {n : Nat}
    (quad : hexQuad? a b c d = some n) (plain : isHighSurrogate n = false) (x : Char)
    (rest : List Char) :
    readText start ('\\' :: 'u' :: a :: b :: c :: d :: x :: rest) =
      (readText start (x :: rest)).map fun p => (charOf n :: p.1, p.2) := by
  rw [readText.eq_def]
  split
  all_goals grind

theorem readText_pair (start : List Char) {a b c d e f g h : Char} {m n : Nat}
    (first : hexQuad? a b c d = some m) (second : hexQuad? e f g h = some n)
    (high : isHighSurrogate m = true) (low : isLowSurrogate n = true) (x : Char)
    (rest : List Char) :
    readText start ('\\' :: 'u' :: a :: b :: c :: d :: '\\' :: 'u' :: e :: f ::
      g :: h :: x :: rest) = (readText start (x :: rest)).map fun p =>
        (Char.ofNat (0x10000 + (m - 0xD800) * 0x400 + (n - 0xDC00)) :: p.1, p.2) := by
  rw [readText]
  simp [first, second, high, low]

theorem readText_escape (start : List Char) {c e : Char} (h : escaped? c = some e)
    (rest : List Char) :
    readText start ('\\' :: c :: rest) = (readText start rest).map fun p => (e :: p.1, p.2) := by
  have other : c ≠ 'u' := by rintro rfl; simp [escaped?] at h
  rw [readText.eq_def]
  split
  all_goals grind

theorem readText_plain (start : List Char) {c : Char} (quote : c ≠ '"') (slash : c ≠ '\\')
    (printable : 32 ≤ c.toNat) (rest : List Char) :
    readText start (c :: rest) = (readText start rest).map fun p => (c :: p.1, p.2) := by
  have big : ¬ c.val < 0x20 := fun small => Nat.not_lt.2 printable (UInt32.lt_iff_toNat_lt.1 small)
  rw [readText.eq_def]
  split
  all_goals grind

/-- The escapes of a character are read back. -/
theorem readText_pointEscape (start : List Char) (c x : Char) (rest : List Char) :
    readText start (pointEscape c.toNat ++ x :: rest) =
      (readText start (x :: rest)).map fun p => (c :: p.1, p.2) := by
  unfold pointEscape
  split
  · rename_i small
    obtain ⟨a, b, c', d, digits, quad⟩ := hex_four small
    have scalar : isHighSurrogate c.toNat = false ∧ isLowSurrogate c.toNat = false := by
      rcases c.valid with h | h
      · have h : c.toNat < 0xD800 := h
        simp [isHighSurrogate, isLowSurrogate]; omega
      · have h : 0xDFFF < c.toNat := h.1
        simp [isHighSurrogate, isLowSurrogate]; omega
    rw [unitEscape, digits]
    simp only [List.cons_append, List.nil_append]
    rw [readText_unicode start quad scalar.1]
    simp [charOf, scalar]
  · rename_i large
    have bound : c.toNat < 0x110000 := by
      rcases c.valid with h | h
      · have h : c.toNat < 0xD800 := h
        omega
      · exact h.2
    obtain ⟨a, b, c', d, digits, first⟩ :=
      hex_four (show 0xD800 + (c.toNat - 0x10000) / 0x400 < 0x10000 by omega)
    obtain ⟨e, f, g, h, digits', second⟩ :=
      hex_four (show 0xDC00 + (c.toNat - 0x10000) % 0x400 < 0x10000 by omega)
    simp only [unitEscape, digits, digits', List.cons_append, List.nil_append]
    rw [readText_pair start first second (by simp [isHighSurrogate]; omega)
      (by simp [isLowSurrogate]; omega)]
    have whole : 0x10000 + (0xD800 + (c.toNat - 0x10000) / 0x400 - 0xD800) * 0x400 +
        (0xDC00 + (c.toNat - 0x10000) % 0x400 - 0xDC00) = c.toNat := by omega
    rw [whole, Char.ofNat_toNat]

/-- **A written character is read back**, whatever follows it; a closing quote at least does. -/
theorem readText_writtenChar (start : List Char) (c x : Char) (rest : List Char) :
    readText start (writtenChar c ++ x :: rest) =
      (readText start (x :: rest)).map fun p => (c :: p.1, p.2) := by
  unfold writtenChar
  split
  · rename_i h
    rcases (by simpa using h : c = '"' ∨ c = '\\') with rfl | rfl <;>
      exact readText_escape start (by decide) _
  rename_i marks
  simp only [Bool.or_eq_true, beq_iff_eq, not_or] at marks
  iterate 5
    split
    · rename_i h
      obtain rfl := beq_iff_eq.1 h
      exact readText_escape start (by decide) _
  split
  · rename_i h
    exact readText_plain start marks.1 marks.2 (by simp at h; exact h.1) _
  · exact readText_pointEscape start c x rest

/-- **A written text is read back** up to its closing quote. -/
theorem readText_written (start cs rest : List Char) :
    readText start (cs.flatMap writtenChar ++ '"' :: rest) = .ok (cs, rest) := by
  induction cs with
  | nil => simp [readText]
  | cons c cs ih =>
    obtain ⟨x, more, hx⟩ : ∃ x more, cs.flatMap writtenChar ++ '"' :: rest = x :: more := by
      cases h : cs.flatMap writtenChar with
      | nil => exact ⟨_, _, rfl⟩
      | cons y ys => exact ⟨_, _, rfl⟩
    rw [List.flatMap_cons, List.append_assoc, hx, readText_writtenChar, ← hx, ih]
    rfl

/-! ## Integers -/

/-- What follows a number in a text: nothing that would continue it. -/
def EndsNumber (rest : List Char) : Prop :=
  ∀ c, rest.head? = some c → c.isDigit = false ∧ c ≠ '.' ∧ c ≠ 'e' ∧ c ≠ 'E'

/-- The decimal digits of a number do not start with a zero. -/
theorem head?_toDigits {n : Nat} (h : 0 < n) : (Nat.toDigits 10 n).head? ≠ some '0' := by
  induction n using Nat.strongRecOn with
  | _ n ih =>
    by_cases small : n < 10
    · rw [Nat.toDigits_of_lt_base small]
      have digit : ∀ m, m < 10 → 0 < m → [m.digitChar].head? ≠ some '0' := by decide
      exact digit n small h
    · have more := ih (n / 10) (by omega) (by omega)
      rw [Nat.toDigits_of_base_le (by decide) (by omega)]
      rwa [List.head?_append, Option.or_of_isSome (List.isSome_head?.2 Nat.toDigits_ne_nil)]

theorem valueOf_toDigits (n : Nat) : valueOf (Nat.toDigits 10 n) = n := by
  rw [valueOf, Text.digitsValue, List.foldl_map]
  exact Nat.ofDigitChars_ten_toDigits

theorem wholeDigits_toDigits (n : Nat) {rest : List Char} (h : EndsNumber rest) :
    wholeDigits (Nat.toDigits 10 n ++ rest) = (Nat.toDigits 10 n, rest) := by
  have digits : ∀ c ∈ Nat.toDigits 10 n, c.isDigit = true := fun c hc =>
    Nat.isDigit_of_mem_toDigits (by decide) (by decide) hc
  have after : rest.takeWhile Char.isDigit = [] ∧ rest.dropWhile Char.isDigit = rest := by
    cases rest with
    | nil => simp
    | cons c more => simp [(h c rfl).1]
  rcases Nat.eq_zero_or_pos n with rfl | pos
  · rfl
  · rw [wholeDigits]
    · rw [List.takeWhile_append_of_pos digits, List.dropWhile_append_of_pos digits, after.1,
        after.2, List.append_nil]
    · intro more e
      apply head?_toDigits pos
      have first := congrArg List.head? e
      rwa [List.head?_append,
        Option.or_of_isSome (List.isSome_head?.2 Nat.toDigits_ne_nil)] at first

theorem fractionDigits_of_ends {rest : List Char} (h : EndsNumber rest) :
    fractionDigits rest = ([], rest) := by
  unfold fractionDigits
  split
  · exact absurd rfl (h _ rfl).2.1
  · rfl

theorem powerOfTen_of_ends {rest : List Char} (h : EndsNumber rest) :
    powerOfTen rest = (none, rest) := by
  cases rest with
  | nil => rfl
  | cons c more => simp [powerOfTen, (h c rfl).2.2]

/-- The characters of an integer. -/
def intText (n : Int) : List Char :=
  if n < 0 then '-' :: Nat.toDigits 10 n.natAbs else Nat.toDigits 10 n.natAbs

theorem toList_toString_int (n : Int) : (toString n).toList = intText n := by
  rw [Int.toString_eq_repr, Int.repr_eq_if, intText]
  by_cases negative : n < 0
  · have magnitude : (-n).toNat = n.natAbs := by omega
    rw [if_neg (by omega), if_pos negative, String.toList_append, Nat.toList_repr, magnitude]
    rfl
  · have magnitude : n.toNat = n.natAbs := by omega
    rw [if_pos (by omega), if_neg negative, Nat.toList_repr, magnitude]

/-- **An integer is read back** if it does not have more digits than are read. -/
theorem readNumber_intText {n : Int} (small : Text.IsShort n) {rest : List Char}
    (h : EndsNumber rest) : readNumber (intText n ++ rest) = .ok (.int n, rest) := by
  have short : ¬ Text.maxDigits < (Nat.toDigits 10 n.natAbs).length := Nat.not_lt.2 small
  have nonempty : (Nat.toDigits 10 n.natAbs).isEmpty = false := by simp
  by_cases negative : n < 0
  · have value : -(n.natAbs : Int) = n := by omega
    simp only [intText, if_pos negative, List.cons_append, readNumber, wholeDigits_toDigits _ h,
      fractionDigits_of_ends h, powerOfTen_of_ends h, nonempty, valueOf_toDigits]
    simp only [Option.isNone_none, List.isEmpty_nil, Bool.and_self, Bool.false_eq_true, reduceIte,
      gt_iff_lt, short, value]
  · have value : (n.natAbs : Int) = n := by omega
    have unsigned : ∀ s, (Nat.toDigits 10 n.natAbs ++ rest) ≠ '-' :: s := by
      intro s e
      have first := congrArg List.head? e
      rw [List.head?_append, Option.or_of_isSome (List.isSome_head?.2 Nat.toDigits_ne_nil)] at first
      have digit := Nat.isDigit_of_mem_toDigits (by decide) (by decide) (List.mem_of_head? first)
      exact absurd digit (by decide)
    rw [intText, if_neg negative, readNumber.eq_def]
    split
    rename_i minus body e
    split at e
    · rename_i s starts
      exact absurd starts (unsigned s)
    · cases e
      simp only [wholeDigits_toDigits _ h, fractionDigits_of_ends h, powerOfTen_of_ends h, nonempty,
        valueOf_toDigits]
      simp only [Option.isNone_none, List.isEmpty_nil, Bool.and_self, Bool.false_eq_true, reduceIte,
        gt_iff_lt, short, value]

/-! ## Layouts -/

/-- Blanks that a layout puts between the parts of a document. -/
def IsBlank (gap : List Char) : Prop := ∀ c ∈ gap, isSpace c = true

theorem isBlank_nil : IsBlank [] := by simp [IsBlank]

theorem isBlank_space : IsBlank [' '] := by simp [IsBlank, isSpace]

theorem skipSpace_append {gap : List Char} (h : IsBlank gap) (s : List Char) :
    skipSpace (gap ++ s) = skipSpace s :=
  List.dropWhile_append_of_pos h

theorem skipSpace_cons {c : Char} (h : isSpace c = false) (s : List Char) :
    skipSpace (c :: s) = c :: s := by
  simp [skipSpace, h]

theorem endsNumber_cons {c : Char} (h : c.isDigit = false ∧ c ≠ '.' ∧ c ≠ 'e' ∧ c ≠ 'E')
    (rest : List Char) : EndsNumber (c :: rest) := by
  intro d hd
  cases hd
  exact h

theorem endsNumber_nil : EndsNumber [] := by
  intro c hc
  cases hc

theorem endsNumber_append {gap : List Char} (h : IsBlank gap) {rest : List Char}
    (ends : EndsNumber rest) : EndsNumber (gap ++ rest) := by
  cases gap with
  | nil => exact ends
  | cons c more =>
    have space : isSpace c = true := h c (by simp)
    simp only [isSpace, Bool.or_eq_true, beq_iff_eq] at space
    apply endsNumber_cons
    rcases space with ((rfl | rfl) | rfl) | rfl <;> decide

/-- A text that is read as a value wherever something follows that does not go on with it. -/
structure Reads (v : Value) (s : List Char) : Prop where
  opens : ∃ c more, s = c :: more ∧ isSpace c = false ∧ c ≠ ']' ∧ c.toNat < 128
  reads : ∀ {fuel : Nat} {rest : List Char}, s.length ≤ fuel → EndsNumber rest →
    readValue fuel (s ++ rest) = .ok (v, rest)

theorem Reads.skipSpace {v : Value} {s : List Char} (h : Reads v s) (rest : List Char) :
    skipSpace (s ++ rest) = s ++ rest := by
  obtain ⟨c, more, rfl, space, -, -⟩ := h.opens
  exact skipSpace_cons space _

theorem Reads.length_pos {v : Value} {s : List Char} (h : Reads v s) : 0 < s.length := by
  obtain ⟨c, more, rfl, -⟩ := h.opens
  simp

theorem exists_intercalate_cons (sep s : List Char) (texts : List (List Char)) :
    ∃ more, sep.intercalate (s :: texts) = s ++ more := by
  cases texts with
  | nil => exact ⟨[], by simp⟩
  | cons t texts => exact ⟨_, by rw [List.intercalate_cons_cons, List.append_assoc]⟩

/-- The items of a list are read from their texts, up to the bracket that closes the list. -/
theorem readItems_intercalate {gap closing : List Char} (hgap : IsBlank gap)
    (hclosing : IsBlank closing) (rest : List Char) :
    ∀ (pieces : List (Value × List Char)), (∀ p ∈ pieces, Reads p.1 p.2) → pieces ≠ [] →
      ∀ (fuel : Nat), ((',' :: gap).intercalate (pieces.map Prod.snd)).length < fuel →
        readItems fuel ((',' :: gap).intercalate (pieces.map Prod.snd) ++
          (closing ++ ']' :: rest)) = .ok (pieces.map Prod.fst, rest)
  | [], _, nonempty, _, _ => absurd rfl nonempty
  | _ :: _, _, _, 0, long => absurd long (Nat.not_lt_zero _)
  | [(v, s)], h, _, fuel + 1, long => by
    have piece : Reads v s := h (v, s) (by simp)
    have after : EndsNumber (closing ++ ']' :: rest) :=
      endsNumber_append hclosing (endsNumber_cons (by decide) _)
    simp only [List.map_cons, List.map_nil, List.intercalate_singleton] at long ⊢
    rw [readItems, piece.reads (by omega) after]
    simp only [bind, Except.bind, skipSpace_append hclosing,
      skipSpace_cons (show isSpace ']' = false by decide)]
    rfl
  | (v, s) :: (w, t) :: more, h, _, fuel + 1, long => by
    have piece : Reads v s := h (v, s) (by simp)
    have next : Reads w t := h (w, t) (by simp)
    have := piece.length_pos
    simp only [List.map_cons, List.intercalate_cons_cons, List.length_append,
      List.length_cons] at long
    have others := readItems_intercalate hgap hclosing rest ((w, t) :: more)
      (fun p hp => h p (List.mem_cons_of_mem _ hp)) (by simp) fuel
      (by simp only [List.map_cons]; omega)
    obtain ⟨texts, split⟩ := exists_intercalate_cons (',' :: gap) t (more.map Prod.snd)
    simp only [List.map_cons, List.intercalate_cons_cons, List.append_assoc,
      List.cons_append] at others ⊢
    rw [readItems, piece.reads (by omega) (endsNumber_cons (by decide) _)]
    simp only [bind, Except.bind, skipSpace_cons (show isSpace ',' = false by decide),
      skipSpace_append hgap]
    rw [split, List.append_assoc, next.skipSpace, ← List.append_assoc, ← split, others]
    rfl

/-- **A list is read from the texts of its items.** -/
theorem reads_list {opening gap closing : List Char} (hopening : IsBlank opening)
    (hgap : IsBlank gap) (hclosing : IsBlank closing) (pieces : List (Value × List Char))
    (h : ∀ p ∈ pieces, Reads p.1 p.2) (nonempty : pieces ≠ []) :
    Reads (.list (pieces.map Prod.fst))
      ('[' :: opening ++ (',' :: gap).intercalate (pieces.map Prod.snd) ++ closing ++ [']']) := by
  obtain ⟨⟨v, s⟩, more, rfl⟩ := List.exists_cons_of_ne_nil nonempty
  have first : Reads v s := h (v, s) (by simp)
  obtain ⟨c, text, starts, space, bracket, -⟩ := first.opens
  obtain ⟨texts, split⟩ := exists_intercalate_cons (',' :: gap) s (more.map Prod.snd)
  refine ⟨⟨'[', _, rfl, by decide, by decide, by decide⟩, ?_⟩
  intro fuel rest long _
  cases fuel with
  | zero => simp at long
  | succ fuel =>
    have items := readItems_intercalate hgap hclosing rest _ h nonempty fuel
      (by simp at long ⊢; omega)
    simp only [List.map_cons, List.cons_append, List.append_assoc, List.nil_append] at items ⊢
    rw [readValue, skipSpace_append hopening, split, List.append_assoc, first.skipSpace]
    rw [split, List.append_assoc] at items
    split
    · rename_i e
      rw [starts, List.cons_append, List.cons.injEq] at e
      exact absurd e.1 bracket
    · rw [items]
      rfl

theorem reads_list_nil : Reads (.list []) ['[', ']'] := by
  refine ⟨⟨'[', _, rfl, by decide, by decide, by decide⟩, ?_⟩
  intro fuel rest long _
  cases fuel with
  | zero => simp at long
  | succ fuel => rfl

/-- The text of a member: its name between quotes, a colon and the text of its value. -/
def memberText (m : String × List Char) : List Char :=
  '"' :: m.1.toList.flatMap writtenChar ++ ('"' :: ':' :: ' ' :: m.2)

/-- One member is read from its text, and what follows decides how the object goes on. -/
theorem readMembers_memberText {k : String} {v : Value} {s : List Char} (piece : Reads v s)
    {found : List (String × Value)} (fresh : k ∉ Assoc.names found) {fuel : Nat}
    (long : s.length ≤ fuel) {tail : List Char} (ends : EndsNumber tail) :
    readMembers (fuel + 1) found (memberText (k, s) ++ tail) =
      match skipSpace tail with
      | '\x7d' :: rest => .ok (found ++ [(k, v)], rest)
      | ',' :: rest => readMembers fuel (found ++ [(k, v)]) (skipSpace rest)
      | rest => fail .expectedComma rest := by
  simp only [memberText, List.cons_append, List.append_assoc]
  rw [readMembers, readText_written]
  have value : skipSpace (' ' :: (s ++ tail)) = s ++ tail := by
    rw [show ' ' :: (s ++ tail) = [' '] ++ (s ++ tail) from rfl,
      skipSpace_append isBlank_space, piece.skipSpace]
  simp only [bind, Except.bind, skipSpace_cons (show isSpace ':' = false by decide), value,
    piece.reads long ends, String.ofList_toList, Assoc.set_of_not_mem fresh]
  rfl

/-- The members of an object are read from their texts, up to the brace that closes the object, and
added to those found before. -/
theorem readMembers_intercalate {gap closing : List Char} (hgap : IsBlank gap)
    (hclosing : IsBlank closing) (rest : List Char) :
    ∀ (pieces : List (String × Value × List Char)) (found : List (String × Value)),
      (∀ p ∈ pieces, Reads p.2.1 p.2.2) → pieces ≠ [] →
      (Assoc.names found ++ pieces.map Prod.fst).Nodup →
      ∀ (fuel : Nat),
        ((',' :: gap).intercalate (pieces.map fun p => memberText (p.1, p.2.2))).length < fuel →
        readMembers fuel found
          ((',' :: gap).intercalate (pieces.map fun p => memberText (p.1, p.2.2))
            ++ (closing ++ '\x7d' :: rest)) =
          .ok (found ++ pieces.map fun p => (p.1, p.2.1), rest)
  | [], _, _, nonempty, _, _, _ => absurd rfl nonempty
  | _ :: _, _, _, _, _, 0, long => absurd long (Nat.not_lt_zero _)
  | [(k, v, s)], found, h, _, distinct, fuel + 1, long => by
    have piece : Reads v s := h (k, v, s) (by simp)
    have fresh : k ∉ Assoc.names found := fun hk =>
      (List.nodup_append.1 distinct).2.2 k hk k (by simp) rfl
    simp only [List.map_cons, List.map_nil, List.intercalate_singleton] at long ⊢
    rw [readMembers_memberText piece fresh (by simp [memberText] at long; omega)
      (endsNumber_append hclosing (endsNumber_cons (by decide) _)), skipSpace_append hclosing,
      skipSpace_cons (by decide)]
    rfl
  | (k, v, s) :: (l, w, t) :: more, found, h, _, distinct, fuel + 1, long => by
    have piece : Reads v s := h (k, v, s) (by simp)
    have fresh : k ∉ Assoc.names found := fun hk =>
      (List.nodup_append.1 distinct).2.2 k hk k (by simp) rfl
    have size : s.length < (memberText (k, s)).length := by simp [memberText]; omega
    simp only [List.map_cons, List.intercalate_cons_cons, List.length_append,
      List.length_cons] at long
    have others := readMembers_intercalate hgap hclosing rest ((l, w, t) :: more)
      (found ++ [(k, v)]) (fun p hp => h p (List.mem_cons_of_mem _ hp)) (by simp)
      (by simpa [Assoc.names] using distinct) fuel
      (by simp only [List.map_cons]; omega)
    obtain ⟨texts, split⟩ := exists_intercalate_cons (',' :: gap) (memberText (l, t))
      (more.map fun p => memberText (p.1, p.2.2))
    have quote : skipSpace (memberText (l, t) ++ (texts ++ (closing ++ '\x7d' :: rest))) =
        memberText (l, t) ++ (texts ++ (closing ++ '\x7d' :: rest)) :=
      skipSpace_cons (by decide) _
    simp only [List.map_cons, List.intercalate_cons_cons, List.append_assoc, List.cons_append,
      split] at others ⊢
    rw [readMembers_memberText piece fresh (by omega) (endsNumber_cons (by decide) _),
      skipSpace_cons (by decide)]
    simp only [skipSpace_append hgap, quote, others, List.nil_append]

/-- **An object is read from the texts of its members** if no two of them have the same name. -/
theorem reads_object {opening gap closing : List Char} (hopening : IsBlank opening)
    (hgap : IsBlank gap) (hclosing : IsBlank closing) (pieces : List (String × Value × List Char))
    (h : ∀ p ∈ pieces, Reads p.2.1 p.2.2) (nonempty : pieces ≠ [])
    (distinct : (pieces.map Prod.fst).Nodup) :
    Reads (.object (pieces.map fun p => (p.1, p.2.1)))
      ('\x7b' :: opening ++ (',' :: gap).intercalate (pieces.map fun p => memberText (p.1, p.2.2))
        ++ closing ++ ['\x7d']) := by
  obtain ⟨⟨k, v, s⟩, more, rfl⟩ := List.exists_cons_of_ne_nil nonempty
  obtain ⟨texts, split⟩ := exists_intercalate_cons (',' :: gap) (memberText (k, s))
    (more.map fun p => memberText (p.1, p.2.2))
  refine ⟨⟨'\x7b', _, rfl, by decide, by decide, by decide⟩, ?_⟩
  intro fuel rest long _
  cases fuel with
  | zero => simp at long
  | succ fuel =>
    have members := readMembers_intercalate hgap hclosing rest _ [] h nonempty
      (by simpa [Assoc.names] using distinct) fuel (by simp at long ⊢; omega)
    have quote : skipSpace (memberText (k, s) ++ (texts ++ (closing ++ '\x7d' :: rest))) =
        memberText (k, s) ++ (texts ++ (closing ++ '\x7d' :: rest)) :=
      skipSpace_cons (by decide) _
    simp only [List.map_cons, List.cons_append, List.append_assoc, List.nil_append, split]
      at members ⊢
    rw [readValue, skipSpace_append hopening, quote]
    split
    · rename_i e
      simp [memberText] at e
    · rw [members]
      rfl

theorem reads_object_nil : Reads (.object []) ['\x7b', '\x7d'] := by
  refine ⟨⟨'\x7b', _, rfl, by decide, by decide, by decide⟩, ?_⟩
  intro fuel rest long _
  cases fuel with
  | zero => simp at long
  | succ fuel => rfl

/-! ## Documents -/

/-- Documents without doubles, whose integers have no more digits than are read and whose objects
have no two members of one name. -/
inductive Plain : Value → Prop
  | null : Plain .null
  | bool (b : Bool) : Plain (.bool b)
  | int {n : Int} (small : Text.IsShort n) : Plain (.int n)
  | text (s : String) : Plain (.text s)
  | list {items : List Value} (each : ∀ v ∈ items, Plain v) : Plain (.list items)
  | object {members : List (String × Value)} (distinct : (Assoc.names members).Nodup)
      (each : ∀ m ∈ members, Plain m.2) : Plain (.object members)

theorem Plain.single {name : String} {v : Value} (h : Plain v) : Plain (.object [(name, v)]) :=
  .object (List.pairwise_singleton _ _) fun _ here => List.mem_singleton.1 here ▸ h

theorem readValue_readPlain {c : Char} (h : c ≠ '"' ∧ c ≠ '\x7b' ∧ c ≠ '[') (fuel : Nat)
    (more : List Char) : readValue (fuel + 1) (c :: more) = readPlain (c :: more) := by
  rw [readValue]
  all_goals simp [h]

theorem reads_of_readPlain {v : Value} {c : Char} {more : List Char} (space : isSpace c = false)
    (h : c ≠ '"' ∧ c ≠ '\x7b' ∧ c ≠ '[') (bracket : c ≠ ']') (ascii : c.toNat < 128)
    (reads : ∀ {rest : List Char}, EndsNumber rest →
    readPlain (c :: more ++ rest) = .ok (v, rest)) :
    Reads v (c :: more) := by
  refine ⟨⟨c, more, rfl, space, bracket, ascii⟩, ?_⟩
  intro fuel rest long ends
  cases fuel with
  | zero => simp at long
  | succ fuel =>
    rw [List.cons_append, readValue_readPlain h, ← List.cons_append]
    exact reads ends

theorem reads_text (s : String) : Reads (.text s) (writeText s).toList := by
  rw [writeText, String.toList_ofList]
  refine ⟨⟨'"', _, rfl, by decide, by decide, by decide⟩, ?_⟩
  intro fuel rest long _
  cases fuel with
  | zero => simp at long
  | succ fuel =>
    simp only [List.cons_append, List.append_assoc, List.nil_append]
    rw [readValue, readText_written]
    simp [Except.map]

theorem reads_int {n : Int} (small : Text.IsShort n) : Reads (.int n) (toString n).toList := by
  rw [toList_toString_int]
  obtain ⟨d, digits, split⟩ := List.exists_cons_of_ne_nil
    (Nat.toDigits_ne_nil : Nat.toDigits 10 n.natAbs ≠ [])
  have digit : d.isDigit = true :=
    Nat.isDigit_of_mem_toDigits (by decide) (by decide) (split ▸ List.mem_cons_self)
  have bounds : 48 ≤ d.toNat ∧ d.toNat ≤ 57 := by
    simpa [Char.isDigit, UInt32.le_iff_toNat_le] using digit
  have other (x : Char) (h : x.toNat < 48 ∨ 57 < x.toNat) : d ≠ x := by
    rintro rfl
    omega
  have read {rest : List Char} (ends : EndsNumber rest) := readNumber_intText small ends
  unfold intText at read ⊢
  rw [split] at read ⊢
  split
  · rename_i negative
    simp only [if_pos negative] at read
    refine reads_of_readPlain (by decide) (by decide) (by decide) (by decide) ?_
    intro rest ends
    rw [← read ends, readPlain]
    have letter : 'I' ≠ d := (other 'I' (by decide)).symm
    simp [wordValues, takeWord?, letter]
  · rename_i positive
    simp only [if_neg positive] at read
    refine reads_of_readPlain ?_ ⟨other _ (by decide), other _ (by decide), other _ (by decide)⟩
      (other _ (by decide)) (by omega) ?_
    · simp [isSpace, other ' ' (by decide), other '\t' (by decide), other '\n' (by decide),
        other '\r' (by decide)]
    · intro rest ends
      rw [← read ends, readPlain]
      simp [wordValues, takeWord?, (other 'n' (by decide)).symm, (other 't' (by decide)).symm,
        (other 'f' (by decide)).symm, (other 'N' (by decide)).symm, (other 'I' (by decide)).symm,
        (other '-' (by decide)).symm]

theorem toList_writeItems : ∀ items : List Value,
    (writeItems items).toList = [',', ' '].intercalate (items.map fun v => (write v).toList)
  | [] => rfl
  | [v] => by simp [writeItems]
  | v :: w :: more => by
    rw [writeItems, String.toList_append, String.toList_append, toList_writeItems (w :: more)]
    · simp [List.intercalate_cons_cons]
    · simp

theorem toList_writeMembers : ∀ members : List (String × Value),
    (writeMembers members).toList =
      [',', ' '].intercalate (members.map fun m => memberText (m.1, (write m.2).toList))
  | [] => rfl
  | [(k, v)] => by simp [writeMembers, writeText, memberText]
  | (k, v) :: m :: more => by
    rw [writeMembers]
    · simp only [String.toList_append, toList_writeMembers (m :: more)]
      simp [List.intercalate_cons_cons, writeText, memberText]
    · simp

/-- **A document is read from its text on one line**, whatever follows it. -/
theorem reads_write {v : Value} (h : Plain v) : Reads v (write v).toList := by
  induction h with
  | null =>
    rw [write]
    exact reads_of_readPlain (by decide) (by decide) (by decide) (by decide) fun _ => rfl
  | bool b =>
    rw [write]
    cases b
    · exact reads_of_readPlain (by decide) (by decide) (by decide) (by decide) fun _ => rfl
    · exact reads_of_readPlain (by decide) (by decide) (by decide) (by decide) fun _ => rfl
  | int small =>
    rw [write]
    exact reads_int small
  | text s =>
    rw [write]
    exact reads_text s
  | @list items _ ih =>
    rw [write, String.toList_append, String.toList_append, toList_writeItems]
    by_cases nonempty : items = []
    · subst nonempty
      exact reads_list_nil
    · have parts := reads_list isBlank_nil isBlank_space isBlank_nil
        (items.map fun v => (v, (write v).toList))
        (by
          intro p hp
          obtain ⟨w, hw, rfl⟩ := List.mem_map.1 hp
          exact ih w hw)
        (by simpa using nonempty)
      simpa [Function.comp_def] using parts
  | @object members distinct _ ih =>
    rw [write, String.toList_append, String.toList_append, toList_writeMembers]
    by_cases nonempty : members = []
    · subst nonempty
      exact reads_object_nil
    · have parts := reads_object isBlank_nil isBlank_space isBlank_nil
        (members.map fun m => (m.1, m.2, (write m.2).toList))
        (by
          intro p hp
          obtain ⟨m, hm, rfl⟩ := List.mem_map.1 hp
          exact ih m hm)
        (by simpa using nonempty)
        (by simpa [Function.comp_def, Assoc.names] using distinct)
      simpa [Function.comp_def] using parts

/-- A text that reads as a value is the document of that value. -/
theorem parse_of_reads {v : Value} {s : String} (h : Reads v s.toList) : parse s = .ok v := by
  obtain ⟨c, more, split, space, -, ascii⟩ := h.opens
  have value : readValue (2 * s.toList.length + 2) (s.toList ++ []) = .ok (v, []) :=
    h.reads (by omega) endsNumber_nil
  have skip := h.skipSpace []
  rw [List.append_nil] at value skip
  have whole : readWhole s.toList = .ok v := by
    rw [readWhole.eq_def, skip, value, split]
    simp only [show ¬ c.toNat = 0xFEFF by omega, if_false]
    rfl
  rw [parse, read, whole]
  rfl

/-- **A document on one line is read back as it was.** -/
theorem parse_write {v : Value} (h : Plain v) : parse (write v) = .ok v :=
  parse_of_reads (reads_write h)

end Json

end SelectorCatalog
