import Mathlib.Data.List.TakeWhile
import SelectorCatalog.Proofs.Json.RoundTrip
import SelectorCatalog.Proofs.Json.Shape

/-!
# How far a document reaches

What is read of a text is a beginning of it. A value ends with a character that is no blank, and it
ends with a closing brace exactly if it begins with an opening one, which is exactly if it is an
object (`readValue_extent`). The number that bounds the nested steps never counts, as it is larger
than any text needs (`readValue_steps`).
-/

set_option autoImplicit false

namespace SelectorCatalog.Json

/-- What was read of the text `s` up to `rest` ends with a character with a property. -/
def EndsWith (P : Char → Prop) (s rest : List Char) :
    Prop := ∃ inner last, s = inner ++ last :: rest ∧ P last

namespace EndsWith

variable {P Q : Char → Prop} {s t rest : List Char}

theorem one {c : Char} (h : P c) : EndsWith P (c :: rest) rest := ⟨[], c, rfl, h⟩

theorem after (before : List Char) (h : EndsWith P s rest) : EndsWith P (before ++ s) rest := by
  obtain ⟨inner, last, rfl, holds⟩ := h
  exact ⟨before ++ inner, last, (List.append_assoc ..).symm, holds⟩

theorem cons (c : Char) (h : EndsWith P s rest) : EndsWith P (c :: s) rest := after [c] h

theorem imp (h : EndsWith P s rest) (weaker : ∀ c, P c → Q c) : EndsWith Q s rest := by
  obtain ⟨inner, last, same, holds⟩ := h
  exact ⟨inner, last, same, weaker last holds⟩

theorem length_lt (h : EndsWith P s rest) : rest.length < s.length := by
  obtain ⟨inner, last, rfl, -⟩ := h
  rw [List.length_append, List.length_cons]
  omega

/-- Blanks before the next part belong to it. -/
theorem skipSpace (h : EndsWith P (Json.skipSpace s) rest) : EndsWith P s rest := by
  rw [← List.takeWhile_append_dropWhile (p := isSpace) (l := s)]
  exact h.after _

theorem trans (first : EndsWith Q s t) (later : EndsWith P t rest) : EndsWith P s rest := by
  obtain ⟨inner, last, rfl, -⟩ := first
  exact (later.cons last).after inner

/-- A part that may be missing ends like the one before it. -/
theorem trans_optional (first : EndsWith P s t) (later : rest = t ∨ EndsWith P t rest) :
    EndsWith P s rest := by
  rcases later with rfl | later
  · exact first
  · exact first.trans later

theorem takeWhile {p : Char → Bool} (nonempty : s.takeWhile p ≠ []) :
    EndsWith (p · = true) s (s.dropWhile p) := by
  have split := List.takeWhile_append_dropWhile (p := p) (l := s)
  rw [← List.dropLast_append_getLast nonempty, List.append_assoc] at split
  exact ⟨_, _, split.symm, List.mem_takeWhile_imp (List.getLast_mem nonempty)⟩

end EndsWith

/-! ## Texts, numbers and words -/

/-- A text is read up to a quote. -/
theorem readText_extent (start s : List Char) :
    Yields (readText start s) fun read => EndsWith (· = '"') s read.2 := by
  fun_induction readText start s with
  | case2 => exact .ok (.one rfl)
  | case5 a b c d e f g h x rest _ _ _ _ _ _ ih =>
    exact .map (ih.imp fun _ ends => ends.after ['\\', 'u', a, b, c, d, '\\', 'u', e, f, g, h])
  | case6 a b c d _ _ _ _ _ _ _ _ _ _ _ _ ih
  | case7 a b c d _ _ _ _ _ _ _ _ _ ih
  | case9 a b c d _ _ _ _ _ ih =>
    exact .map (ih.imp fun _ ends => ends.after ['\\', 'u', a, b, c, d])
  | case13 c _ _ _ _ _ _ ih => exact .map (ih.imp fun _ ends => ends.after ['\\', c])
  | case15 c _ _ _ _ _ _ _ _ ih => exact .map (ih.imp fun _ ends => ends.cons c)
  | _ => exact .error _ _

theorem wholeDigits_extent {s : List Char} (nonempty : (wholeDigits s).1 ≠ []) :
    EndsWith (·.isDigit = true) s (wholeDigits s).2 := by
  unfold wholeDigits at nonempty ⊢
  split
  · exact .one rfl
  · rename_i other
    split at nonempty
    · exact absurd rfl (other _)
    · exact .takeWhile nonempty

theorem fractionDigits_extent (s : List Char) :
    (fractionDigits s).2 = s ∨ EndsWith (·.isDigit = true) s (fractionDigits s).2 := by
  unfold fractionDigits
  split
  · dsimp only
    split
    · exact .inl rfl
    · rename_i nonempty
      exact .inr (.cons _ (.takeWhile (by simpa using nonempty)))
  · exact .inl rfl

theorem takeSign_extent (s : List Char) : ∃ sign, s = sign ++ (Text.takeSign s).2 := by
  unfold Text.takeSign
  split
  · exact ⟨['-'], rfl⟩
  · exact ⟨['+'], rfl⟩
  · exact ⟨[], rfl⟩

theorem powerOfTen_extent (s : List Char) :
    (powerOfTen s).2 = s ∨ EndsWith (·.isDigit = true) s (powerOfTen s).2 := by
  unfold powerOfTen
  split
  · exact .inl rfl
  · rename_i c rest
    split
    · dsimp only
      split
      · exact .inl rfl
      · rename_i nonempty
        obtain ⟨sign, same⟩ := takeSign_extent rest
        have digits : EndsWith (·.isDigit = true) (Text.takeSign rest).2
            (Text.spanDigits (Text.takeSign rest).2).2 :=
          .takeWhile (by simpa [Text.spanDigits] using nonempty)
        have power := digits.after (c :: sign)
        rw [List.cons_append, ← same] at power
        exact .inr power
    · exact .inl rfl

/-- A character that ends a value other than an object. -/
def EndsPlain (c : Char) : Prop := isSpace c = false ∧ c ≠ '\x7d'

theorem endsPlain_of_isDigit (c : Char) (h : c.isDigit = true) : EndsPlain c := by
  refine ⟨?_, ?_⟩
  · simp only [isSpace, Bool.or_eq_false_iff, beq_eq_false_iff_ne]
    refine ⟨⟨⟨?_, ?_⟩, ?_⟩, ?_⟩ <;>
      · rintro rfl
        exact absurd h (by decide)
  · rintro rfl
    exact absurd h (by decide)

theorem readNumber_extent (s : List Char) :
    Yields (readNumber s) fun read => EndsWith (·.isDigit = true) s read.2 ∧ ¬read.1.IsObject := by
  rw [readNumber.eq_def]
  split
  rename_i negative body signed
  obtain ⟨sign, rfl⟩ : ∃ sign, s = sign ++ body := by
    split at signed
    · cases signed
      exact ⟨['-'], rfl⟩
    · cases signed
      exact ⟨[], rfl⟩
  split
  rename_i whole afterWhole eqWhole
  split
  · exact .error _ _
  rename_i nonempty
  have wholeEnds := wholeDigits_extent (s := body) (by simpa [eqWhole] using nonempty)
  split
  rename_i part afterPart eqPart
  have partEnds := fractionDigits_extent afterWhole
  split
  rename_i power rest eqPower
  have powerEnds := powerOfTen_extent afterPart
  rw [eqWhole] at wholeEnds
  rw [eqPart] at partEnds
  rw [eqPower] at powerEnds
  have ends := ((wholeEnds.trans_optional partEnds).trans_optional powerEnds).after sign
  split
  · split
    · exact .error _ _
    · exact .ok ⟨ends, by simp [Value.IsObject]⟩
  · exact .ok ⟨ends, by simp [Value.IsObject]⟩

theorem takeWord?_eq_some {w s rest : List Char} (h : takeWord? w s = some rest) :
    s = w ++ rest := by
  induction w generalizing s with
  | nil => exact Option.some.inj h
  | cons c w ih =>
    cases s with
    | nil => cases h
    | cons d s =>
      rw [takeWord?] at h
      split at h
      · rename_i same
        rw [same, ih h]
        rfl
      · cases h

theorem wordValues_extent : ∀ e ∈ wordValues, EndsWith EndsPlain e.1 [] ∧ ¬e.2.IsObject := by
  have letter (inner : List Char) (last : Char) (h : isSpace last = false ∧ last ≠ '\x7d') :
      EndsWith EndsPlain (inner ++ [last]) [] := ⟨inner, last, rfl, h⟩
  simp only [wordValues, List.forall_mem_cons, List.not_mem_nil, false_implies, implies_true,
    and_true]
  refine ⟨?_, ?_, ?_, ?_, ?_, ?_⟩ <;> refine ⟨?_, by simp [Value.IsObject]⟩
  · exact letter ['n', 'u', 'l'] 'l' (by decide)
  · exact letter ['t', 'r', 'u'] 'e' (by decide)
  · exact letter ['f', 'a', 'l', 's'] 'e' (by decide)
  · exact letter ['N', 'a'] 'N' (by decide)
  · exact letter ['I', 'n', 'f', 'i', 'n', 'i', 't'] 'y' (by decide)
  · exact letter ['-', 'I', 'n', 'f', 'i', 'n', 'i', 't'] 'y' (by decide)

theorem readPlain_extent (s : List Char) :
    Yields (readPlain s) fun read => EndsWith EndsPlain s read.2 ∧ ¬read.1.IsObject := by
  unfold readPlain
  split
  · rename_i v found
    obtain ⟨e, mem, read⟩ := List.exists_of_findSome?_eq_some found
    obtain ⟨rest, taken, rfl⟩ := Option.map_eq_some_iff.1 read
    obtain ⟨⟨inner, last, same, letter⟩, noObject⟩ := wordValues_extent e mem
    refine .ok ⟨⟨inner, last, ?_, letter⟩, noObject⟩
    rw [takeWord?_eq_some taken, same, List.append_assoc]
    rfl
  · exact (readNumber_extent s).imp fun _ h => ⟨h.1.imp endsPlain_of_isDigit, h.2⟩

/-! ## Values -/

/-- What was read from `s` up to `rest` as a value: an object between braces, or something without a
brace at its ends. -/
inductive Extent : List Char → Value × List Char → Prop
  | braced {s rest : List Char} {ms : List (String × Value)}
    (ends : EndsWith (· = '\x7d') ('\x7b' :: s) rest) :
    Extent ('\x7b' :: s) (.object ms, rest)
  | plain {s rest : List Char} {v : Value} (opens : s.head? ≠ some '\x7b') (noObject : ¬v.IsObject)
    (ends : EndsWith EndsPlain s rest) : Extent s (v, rest)

theorem Extent.length_lt {s : List Char} {read : Value × List Char} (h : Extent s read) :
    read.2.length < s.length := by
  cases h with
  | braced ends | plain _ _ ends => exact ends.length_lt

theorem Extent.exists_endsWith {s : List Char} {read : Value × List Char} (h : Extent s read) :
    EndsWith (isSpace · = false) s read.2 := by
  cases h with
  | braced ends =>
    refine ends.imp ?_
    rintro c rfl
    rfl
  | plain _ _ ends => exact ends.imp fun _ h => h.1

/-- What comes after a value in a container ends where the container ends. -/
theorem EndsWith.trans_skipSpace {P Q : Char → Prop} {s t after rest : List Char} {c : Char}
    (first : EndsWith Q s t) (next : Json.skipSpace t = c :: after)
    (later : EndsWith P (c :: after) rest) :
    EndsWith P s rest :=
  first.trans (.skipSpace (next ▸ later))

mutual

theorem readValue_extent : ∀ (fuel : Nat) (s : List Char), Yields (readValue fuel s) (Extent s)
  | 0, _ => .error _ _
  | fuel + 1, s => by
    unfold readValue
    split
    · rename_i rest
      refine .map ((readText_extent _ rest).imp fun read ends =>
        .plain (by simp) (by simp [Value.IsObject]) ?_)
      refine (ends.cons '"').imp ?_
      rintro c rfl
      exact ⟨rfl, by decide⟩
    · rename_i rest
      split
      · rename_i after closes
        exact .ok (.braced (.cons _ (.skipSpace (closes ▸ .one rfl))))
      · exact .map ((readMembers_extent fuel [] _).imp fun read ends =>
          .braced (.cons _ ends.skipSpace))
    · rename_i rest
      have bracket (rest after : List Char) (ends : EndsWith (· = ']') rest after)
          (items : List Value) :
          Extent ('[' :: rest) (.list items, after) := by
        refine .plain (by simp) (by simp [Value.IsObject]) ((ends.cons '[').imp ?_)
        rintro c rfl
        exact ⟨rfl, by decide⟩
      split
      · rename_i after closes
        exact .ok (bracket _ _ (.skipSpace (closes ▸ .one rfl)) _)
      · exact .map ((readItems_extent fuel _).imp fun read ends => bracket _ _ ends.skipSpace _)
    · rename_i noBrace _
      refine (readPlain_extent s).imp fun read h => .plain ?_ h.2 h.1
      rintro opens
      obtain ⟨rest, rfl⟩ := List.head?_eq_some_iff.1 opens
      exact noBrace _ rfl

theorem readMembers_extent : ∀ (fuel : Nat) (found : List (String × Value)) (s : List Char),
    Yields (readMembers fuel found s) fun read => EndsWith (· = '\x7d') s read.2
  | 0, _, _ => .error _ _
  | fuel + 1, found, s => by
    unfold readMembers
    split
    · rename_i rest
      refine .bind (readText_extent _ rest) fun name quoted => ?_
      dsimp only
      split
      · rename_i afterColon colon
        refine .bind (readValue_extent fuel _) fun read extent => ?_
        have entry :=
          (quoted.cons '"').trans_skipSpace colon (extent.exists_endsWith.skipSpace.cons ':')
        split
        · rename_i after closes
          exact .pure (entry.trans_skipSpace closes (.one rfl))
        · rename_i after comma
          refine (readMembers_extent fuel _ _).imp fun others ends => ?_
          exact entry.trans_skipSpace comma (ends.skipSpace.cons ',')
        · exact .error _ _
      · exact .error _ _
    · exact .error _ _

theorem readItems_extent : ∀ (fuel : Nat) (s : List Char),
    Yields (readItems fuel s) fun read => EndsWith (· = ']') s read.2
  | 0, _ => .error _ _
  | fuel + 1, s => by
    unfold readItems
    refine .bind (readValue_extent fuel s) fun read extent => ?_
    have value := extent.exists_endsWith
    dsimp only
    split
    · rename_i after closes
      exact .pure (value.trans_skipSpace closes (.one rfl))
    · rename_i after comma
      refine .bind (readItems_extent fuel _) fun others ends => ?_
      exact .pure (value.trans_skipSpace comma (ends.skipSpace.cons ','))
    · exact .error _ _

end

/-! ## The number that bounds the steps -/

theorem length_skipSpace_le (s : List Char) : (skipSpace s).length ≤ s.length :=
  (List.dropWhile_suffix isSpace).length_le

mutual

theorem readValue_steps : ∀ (fuel more : Nat) (s : List Char),
    2 * s.length + 1 ≤ fuel → 2 * s.length + 1 ≤ more → readValue fuel s = readValue more s
  | 0, _, _, enough, _ => absurd enough (by omega)
  | _, 0, _, _, enough => absurd enough (by omega)
  | fuel + 1, more + 1, s, enough, enough' => by
    unfold readValue
    split
    · rfl
    · rename_i rest
      have shorter := length_skipSpace_le rest
      rw [List.length_cons] at enough enough'
      dsimp only
      split
      · rfl
      · rw [readMembers_steps fuel more [] (skipSpace rest) (by omega) (by omega)]
    · rename_i rest
      have shorter := length_skipSpace_le rest
      rw [List.length_cons] at enough enough'
      dsimp only
      split
      · rfl
      · rw [readItems_steps fuel more (skipSpace rest) (by omega) (by omega)]
    · rfl

theorem readMembers_steps : ∀ (fuel more : Nat) (found : List (String × Value)) (s : List Char),
    2 * s.length + 2 ≤ fuel → 2 * s.length + 2 ≤ more →
      readMembers fuel found s = readMembers more found s
  | 0, _, _, _, enough, _ => absurd enough (by omega)
  | _, 0, _, _, _, enough => absurd enough (by omega)
  | fuel + 1, more + 1, found, s, enough, enough' => by
    unfold readMembers
    split
    · rename_i rest
      refine (readText_extent _ rest).bind_congr fun name quoted => ?_
      rw [List.length_cons] at enough enough'
      have lt := quoted.length_lt
      have shorter := length_skipSpace_le name.2
      dsimp only
      split
      · rename_i afterColon colon
        rw [colon, List.length_cons] at shorter
        have shorterValue := length_skipSpace_le afterColon
        rw [readValue_steps fuel more (skipSpace afterColon) (by omega) (by omega)]
        refine (readValue_extent more _).bind_congr fun read extent => ?_
        have ltValue := extent.length_lt
        have shorterRest := length_skipSpace_le read.2
        split
        · rfl
        · rename_i after comma
          rw [comma, List.length_cons] at shorterRest
          have := length_skipSpace_le after
          exact readMembers_steps fuel more _ _ (by omega) (by omega)
        · rfl
      · rfl
    · rfl

theorem readItems_steps : ∀ (fuel more : Nat) (s : List Char),
    2 * s.length + 2 ≤ fuel → 2 * s.length + 2 ≤ more → readItems fuel s = readItems more s
  | 0, _, _, enough, _ => absurd enough (by omega)
  | _, 0, _, _, enough => absurd enough (by omega)
  | fuel + 1, more + 1, s, enough, enough' => by
    unfold readItems
    rw [readValue_steps fuel more s (by omega) (by omega)]
    refine (readValue_extent more s).bind_congr fun read extent => ?_
    have lt := extent.length_lt
    have shorter := length_skipSpace_le read.2
    dsimp only
    split
    · rfl
    · rename_i after comma
      rw [comma, List.length_cons] at shorter
      have := length_skipSpace_le after
      rw [readItems_steps fuel more (skipSpace after) (by omega) (by omega)]
    · rfl

end

/-! ## Whole texts -/

/-- A step after which only blanks may be left. -/
theorem bind_skipSpace_eq_ok {step : Except Failure (Value × List Char)}
    {finish : Value × List Char → Except Failure Value} {v : Value}
    (blanks : ∀ w gap, finish (w, gap) = .ok v ↔ w = v ∧ skipSpace gap = []) :
    (step >>= finish) = .ok v ↔ ∃ gap, step = .ok (v, gap) ∧ skipSpace gap = [] := by
  rw [bind_eq_ok]
  constructor
  · rintro ⟨⟨w, gap⟩, read, later⟩
    obtain ⟨rfl, blank⟩ := (blanks w gap).1 later
    exact ⟨gap, read, blank⟩
  · rintro ⟨gap, read, blank⟩
    exact ⟨_, read, (blanks v gap).2 ⟨rfl, blank⟩⟩

/-- A document is a value between blanks, and no byte order mark stands in front. -/
theorem readWhole_eq_ok {s : List Char} {v : Value} :
    readWhole s = .ok v ↔ (∀ c ∈ s.head?, c.toNat ≠ 0xFEFF) ∧
      ∃ gap, readValue (2 * s.length + 2) (skipSpace s) = .ok (v, gap) ∧ skipSpace gap = [] := by
  rw [readWhole.eq_def]
  split
  · rename_i c rest
    split
    · rename_i mark
      refine iff_of_false ?_ fun h => h.1 c rfl mark
      rintro ⟨⟩
    · rename_i noMark
      rw [and_iff_right (by simpa using noMark)]
      refine bind_skipSpace_eq_ok fun w gap => ?_
      dsimp only
      split <;> simp_all [pure, Except.pure, fail]
  · rw [and_iff_right (by simp)]
    refine bind_skipSpace_eq_ok fun w gap => ?_
    dsimp only
    split <;> simp_all [pure, Except.pure, fail]

/-- Blanks before a document and after it are no part of it. -/
theorem readWhole_congr {s t : List Char} {v : Value} (h : readWhole s = .ok v)
    (noMark : ∀ c ∈ t.head?, c.toNat ≠ 0xFEFF) (same : skipSpace t = skipSpace s) :
    readWhole t = .ok v := by
  obtain ⟨-, gap, read, blank⟩ := readWhole_eq_ok.1 h
  have shorter (u : List Char) := length_skipSpace_le u
  refine readWhole_eq_ok.2 ⟨noMark, gap, ?_, blank⟩
  rw [same, ← read]
  have := shorter s
  have := shorter t
  rw [same] at this
  exact readValue_steps _ _ _ (by omega) (by omega)

theorem readWhole_extent {s : List Char} {v : Value} (h : readWhole s = .ok v) :
    ∃ gap, Extent (skipSpace s) (v, gap) ∧ IsBlank gap := by
  obtain ⟨-, gap, read, blank⟩ := readWhole_eq_ok.1 h
  refine ⟨gap, readValue_extent _ _ _ read, ?_⟩
  simpa [IsBlank, skipSpace] using blank

/-- The text of an object begins and ends with a brace. -/
theorem readWhole_object {s : List Char} {ms : List (String × Value)}
    (h : readWhole s = .ok (.object ms)) :
    (∃ inner, skipSpace s = '\x7b' :: inner) ∧ ∃ gap, EndsWith (· = '\x7d') s gap ∧
      IsBlank gap := by
  obtain ⟨gap, extent, blank⟩ := readWhole_extent h
  generalize text : skipSpace s = t at extent
  cases extent with
  | braced ends => exact ⟨⟨_, rfl⟩, gap, .skipSpace (text ▸ ends), blank⟩
  | plain _ noObject => exact absurd ⟨ms, rfl⟩ noObject

/-- The last character that is no blank is found from the end of a text. -/
theorem dropWhile_reverse {inner gap : List Char} {last : Char} (solid : isSpace last = false)
    (blank : IsBlank gap) :
    (inner ++ last :: gap).reverse.dropWhile isSpace = last :: inner.reverse := by
  rw [List.reverse_append, List.reverse_cons, List.append_assoc,
    List.dropWhile_append_of_pos fun c mem => blank c (List.mem_reverse.1 mem)]
  simp [solid]

/-- A text that ends with a closing brace and is a document begins with an opening one. -/
theorem readWhole_braced {s gap : List Char} {v : Value} (h : readWhole s = .ok v)
    (closes : EndsWith (· = '\x7d') s gap) (blank : IsBlank gap) :
    ∃ inner, skipSpace s = '\x7b' :: inner := by
  obtain ⟨gap', extent, blank'⟩ := readWhole_extent h
  generalize text : skipSpace s = t at extent
  cases extent with
  | braced ends => exact ⟨_, rfl⟩
  | plain _ _ ends =>
    have ends : EndsWith EndsPlain s gap' := .skipSpace (text ▸ ends)
    obtain ⟨inner, last, same, solid, noBrace⟩ := ends
    obtain ⟨inner', last', rfl, rfl⟩ := closes
    have reversed := congrArg (List.dropWhile isSpace ∘ List.reverse) same
    simp only [Function.comp_apply] at reversed
    rw [dropWhile_reverse (by decide) blank, dropWhile_reverse solid blank'] at reversed
    exact absurd (List.cons.inj reversed).1.symm noBrace

theorem parse_eq_ok {s : String} {v : Value} : parse s = .ok v ↔ readWhole s.toList = .ok v := by
  rw [parse, mapError_eq_ok, read]
  split <;> simp_all

end SelectorCatalog.Json
