import SelectorCatalog.Proofs.Contract.ToldApart
import SelectorCatalog.Proofs.Json.Inherited
import SelectorCatalog.Proofs.Text.Numerals

/-!
# The text of settings is canonical and lossless

An integer of a document that is read has no more digits than are read (`Json.inherits_isWritable`),
and one with more digits is not written either. So this limit is all that is lost of settings: they
are written exactly if their number of optimizer runs keeps to it, and are then read back from their
text, up to the order of libraries. Settings have one text exactly if they agree
(`CompilerSettings.dump_canonical`).

Texts are made of characters here. The writer takes any code points, and does not tell a character
past the first 65536 from the two halves that stand for it (`CompilerSettings.dump_not_canonical`).
-/

set_option autoImplicit false

namespace SelectorCatalog

/-! ## Integers of a document -/

namespace Json

theorem isDigit_of_wholeDigits {s whole rest : List Char} (h : wholeDigits s = (whole, rest)) :
    ∀ c ∈ whole, c.isDigit = true := by
  unfold wholeDigits at h
  split at h
  · cases h
    exact List.forall_mem_singleton.2 rfl
  · cases h
    exact List.all_eq_true.1 List.all_takeWhile

theorem length_toDigits_valueOf {digits : List Char} (each : ∀ c ∈ digits, c.isDigit = true)
    (few : digits.length ≤ Text.maxDigits) :
    (Nat.toDigits 10 (valueOf digits)).length ≤ Text.maxDigits := by
  refine Text.length_toDigits_digitsValue (fun d mem => ?_) (by decide) (by simpa using few)
  obtain ⟨c, listed, rfl⟩ := List.mem_map.1 mem
  exact Text.digitValue?_lt (Text.digitValue?_of_isDigit (each c listed))

theorem readNumber_isWritable (s : List Char) :
    Yields (readNumber s) fun found => isWritable found.1 = true := by
  rw [readNumber.eq_def]
  split
  rename_i negative body signed
  split
  rename_i whole afterWhole digits
  split
  · exact .error _ _
  split
  split
  split
  · split
    · exact .error _ _
    · rename_i few
      have unsigned (n : Int) : (if negative then -n else n).natAbs = n.natAbs := by
        cases negative <;> simp
      refine .ok (decide_eq_true ?_)
      rw [Text.IsShort, unsigned]
      exact length_toDigits_valueOf (isDigit_of_wholeDigits digits) (Nat.not_lt.1 few)
  · exact .ok rfl

/-- **A document that is read can be written.** -/
theorem inherits_isWritable : Inherits fun v => isWritable v = true where
  word := by decide
  number := readNumber_isWritable
  text := isWritable_text
  list := by
    intro items each
    rw [isWritable_list]
    exact List.all_eq_true.2 each
  empty := rfl
  set := by
    intro members name v each value
    rw [isWritable_object, List.all_eq_true] at each ⊢
    intro m mem
    rcases Assoc.mem_set mem with rfl | old
    · exact value
    · exact each m old

end Json

/-! ## Settings that are read -/

theorem StoredSettings.optimizerRuns_of_set? {s t : StoredSettings} {name : String} {v : Value}
    (h : s.set? name v = some t) : t.optimizerRuns = v ∨ t.optimizerRuns = s.optimizerRuns := by
  unfold set? at h
  split at h
  all_goals cases h
  all_goals simp

/-- The number of optimizer runs is the default or a member of the document. -/
theorem StoredSettings.ofValue_isWritable {v : Value} (h : Json.isWritable v = true) :
    Yields (ofValue v) fun s => Json.isWritable s.optimizerRuns = true := by
  cases v with
  | object members =>
    rw [Json.isWritable_object, List.all_eq_true] at h
    -- A member that is set is one of those so far.
    let Q (done : List (String × Value)) (s : StoredSettings) : Prop :=
      (∀ m ∈ done, Json.isWritable m.2 = true) → Json.isWritable s.optimizerRuns = true
    have start : Q [] {} := fun _ => rfl
    unfold ofValue
    refine (Yields.foldlM_from (Q := Q) ?_ members [] start).imp ?_
    · intro done s m kept
      split
      · rename_i t set
        refine .ok fun each => ?_
        rcases optimizerRuns_of_set? set with new | old
        · exact new ▸ each m (by simp)
        · exact old ▸ kept fun m mem => each m (List.mem_append_left _ mem)
      · exact .error _ _
    · exact fun s short => short h
  | _ => exact .error _ _

namespace CompilerSettings

/-- **The number of optimizer runs of settings that are read can be read again.** -/
theorem ofText_hasShortRuns (text : String) : Yields (ofText text) HasShortRuns := by
  unfold ofText StoredSettings.ofText
  refine .bind (.bind (Json.inherits_isWritable.parse text) fun v writable =>
    StoredSettings.ofValue_isWritable writable) fun s runs => ?_
  unfold StoredSettings.settings
  refine .skip fun remappings => .skip fun libraries => ?_
  split
  · rename_i enabled count viaIr _ counted _
    have short : Text.IsShort count := by
      rw [counted] at runs
      exact of_decide_eq_true runs
    split
    · exact .pure short
    · exact .pure short
    · exact .throw _ _
  · exact .throw _ _

theorem hasShortRuns_of_read {s read : CompilerSettings} {text : String}
    (found : ofText text = .ok read) (same : read.Agrees s) : s.HasShortRuns := by
  have short : read.HasShortRuns := ofText_hasShortRuns text read found
  rwa [HasShortRuns, same.optimizerRuns] at short

theorem dump_eq_ok {s : CompilerSettings} {text : String} :
    s.dump = .ok text ↔ s.HasShortRuns ∧ s.toText = text := by
  rw [dump_eq]
  split
  · rename_i short
    exact ⟨fun written => ⟨short, Except.ok.inj written⟩, fun h => congrArg Except.ok h.2⟩
  · rename_i long
    constructor
    · intro written
      cases written
    · exact fun h => absurd h.1 long

/-- **The text of settings is canonical and lossless.** Settings are written exactly if their number
of optimizer runs is short enough, and this loses no text that could be read. What is written is
read back as settings that agree, and is the text of exactly those that do. -/
theorem dump_canonical (s t : CompilerSettings) :
    (Succeeds s.dump ↔ s.HasShortRuns) ∧
    (∀ text, s.dump = .ok text → ∃ read, ofText text = .ok read ∧ read.Agrees s) ∧
    (∀ text, s.dump = .ok text → (t.dump = .ok text ↔ s.Agrees t)) ∧
    (¬s.HasShortRuns → ∀ text read, ofText text = .ok read → ¬read.Agrees s) := by
  refine ⟨⟨?_, ?_⟩, ?_, ?_, ?_⟩
  · rintro ⟨text, written⟩
    exact (dump_eq_ok.1 written).1
  · exact fun short => ⟨s.toText, dump_eq_ok.2 ⟨short, rfl⟩⟩
  · rintro text written
    obtain ⟨short, rfl⟩ := dump_eq_ok.1 written
    exact ⟨s.inOrder, ofText_toText short, s.agrees_inOrder⟩
  · rintro text written
    obtain ⟨short, rfl⟩ := dump_eq_ok.1 written
    constructor
    · intro same
      obtain ⟨short', same⟩ := dump_eq_ok.1 same
      exact (toText_eq_iff short short').1 same.symm
    · exact fun agrees => agrees.dump_eq ▸ written
  · exact fun long text read found agrees => long (hasShortRuns_of_read found agrees)

/-- Settings whose libraries are in another order have one text, and settings with other libraries
another one. -/
theorem dump_canonical_twoLibraries :
    let s : CompilerSettings := { evmVersion := some "paris", libraries := Contract.twoLibraries }
    let t : CompilerSettings :=
      { evmVersion := some "paris", libraries := Contract.twoLibrariesSwapped }
    s.libraries ≠ t.libraries ∧
      ∃ text, s.dump = .ok text ∧ t.dump = .ok text ∧ dump {} ≠ .ok text ∧
        ∃ read, ofText text = .ok read ∧ read.Agrees s := by
  intro s t
  have same : s.Agrees t := { Contract.agrees_twoLibraries with evmVersion := rfl }
  obtain ⟨text, written⟩ := (dump_canonical s t).1.2 (show Text.IsShort 200 by decide)
  refine ⟨by decide, text, written, ((dump_canonical s t).2.2.1 text written).2 same, ?_,
    (dump_canonical s t).2.1 text written⟩
  intro shared
  cases (((dump_canonical s {}).2.2.1 text written).1 shared).evmVersion

/-! ## What is not read back -/

/-- Settings whose number of optimizer runs has one digit more than is read and written. -/
def tooManyRuns : CompilerSettings := { optimizerRuns := .ofNat (Nat.pow 10 Text.maxDigits) }

theorem not_hasShortRuns_tooManyRuns : ¬tooManyRuns.HasShortRuns :=
  Text.not_isShort_pow (Nat.le_refl _)

/-- **Not all settings are written, and not all code points are told apart.** A number of optimizer
runs may be too long to be written. The two code points of a pair of halves are written as the one
character that they stand for, which is what is read back. -/
theorem dump_not_canonical :
    tooManyRuns.dump = .error .tooLongToWrite ∧
      (∀ text read, ofText text = .ok read → ¬read.Agrees tooManyRuns) ∧
      [0xD800, 0xDC00].flatMap Json.pointEscape = [0x10000].flatMap Json.pointEscape ∧
      Json.parse "\"\\ud800\\udc00\"" = .ok (.text (String.singleton (Char.ofNat 0x10000))) := by
  have written : Json.write (.text (String.singleton (Char.ofNat 0x10000))) =
      "\"\\ud800\\udc00\"" := by
    decide
  refine ⟨?_, fun text read found agrees => ?_, by decide, written ▸ Json.parse_write (.text _)⟩
  · rw [dump_eq, if_neg not_hasShortRuns_tooManyRuns]
  · exact not_hasShortRuns_tooManyRuns (hasShortRuns_of_read found agrees)

end CompilerSettings

end SelectorCatalog
