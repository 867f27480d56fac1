import SelectorCatalog.Proofs.Compiler.Returned
import SelectorCatalog.Proofs.Json.Extent

/-!
# A banner in front of the output

Old releases of the compiler print a banner in front of their answer. The whole output is read
first, so a banner must not turn it into another document. It does not: the text of an object ends
with a closing brace, a document that ends so begins with an opening one, and no banner has one
(`decodeOutput_banner`).
-/

set_option autoImplicit false

namespace SelectorCatalog

/-! ## The first brace -/

/-- The text from its first brace on. -/
def fromBrace? (output : String) : Option String :=
  if '\x7b' ∈ output.toList then some (String.ofList (output.toList.dropWhile (· != '\x7b')))
    else none

section

variable {before : List Char} (noBrace : '\x7b' ∉ before) (inner : List Char)

include noBrace

theorem dropWhile_noBrace :
    (before ++ '\x7b' :: inner).dropWhile (· != '\x7b') = '\x7b' :: inner := by
  have plain : ∀ c ∈ before, (c != '\x7b') = true := by
    intro c mem
    simpa using ne_of_mem_of_not_mem mem noBrace
  rw [List.dropWhile_append_of_pos plain]
  simp

theorem takeWhile_noBrace : (before ++ '\x7b' :: inner).takeWhile (· != '\x7b') = before := by
  have split :=
    List.takeWhile_append_dropWhile (p := (· != '\x7b')) (l := before ++ '\x7b' :: inner)
  rw [dropWhile_noBrace noBrace] at split
  exact List.append_cancel_right split

theorem fromBrace?_append :
    fromBrace? (String.ofList (before ++ '\x7b' :: inner)) =
      some (String.ofList ('\x7b' :: inner)) := by
  rw [fromBrace?, String.toList_ofList, dropWhile_noBrace noBrace, if_pos (by simp)]

theorem afterBanner?_append (nonempty : before ≠ []) :
    afterBanner? (String.ofList (before ++ '\x7b' :: inner)) =
      some (String.ofList ('\x7b' :: inner)) := by
  rw [afterBanner?, String.toList_ofList, dropWhile_noBrace noBrace, takeWhile_noBrace noBrace]
  cases before with
  | nil => exact absurd rfl nonempty
  | cons c more => rfl

end

/-- What is tried besides the whole output is the output from its first brace on, unless that is the
whole. -/
theorem afterBanner?_cases (output : String) :
    (afterBanner? output = none ∧ ∀ suffix, fromBrace? output = some suffix → suffix = output) ∨
      ∃ suffix, afterBanner? output = some suffix ∧ fromBrace? output = some suffix := by
  by_cases brace : '\x7b' ∈ output.toList
  · obtain ⟨before, inner, split, noBrace⟩ := List.eq_append_cons_of_mem brace
    have same : output = String.ofList (before ++ '\x7b' :: inner) := by
      rw [← split, String.ofList_toList]
    rw [same]
    by_cases nonempty : before = []
    · subst nonempty
      refine .inl ⟨by simp [afterBanner?], ?_⟩
      intro suffix found
      rw [fromBrace?_append noBrace] at found
      exact (Option.some.inj found).symm
    · exact .inr ⟨_, afterBanner?_append noBrace inner nonempty, fromBrace?_append noBrace inner⟩
  · refine .inl ⟨?_, ?_⟩
    · have nothing : output.toList.dropWhile (· != '\x7b') = [] := by
        rw [List.dropWhile_eq_nil_iff]
        intro c mem
        simpa using ne_of_mem_of_not_mem mem brace
      rw [afterBanner?, nothing]
      cases output.toList.takeWhile (· != '\x7b') <;> rfl
    · intro suffix found
      rw [fromBrace?, if_neg brace] at found
      cases found

/-! ## What is decoded -/

/-- What an output is decoded to: the document that it is, else the document that it is from its
first brace on, else a crash of the process. -/
inductive Decodes (output : String) : Except (Stop CompileFailure) Value → Prop
  | whole {v : Value} (read : Json.parse output = .ok v) : Decodes output (.ok v)
  | fromBrace {suffix : String} {v : Value} (unread : ¬Succeeds (Json.parse output))
    (brace : fromBrace? output = some suffix)
    (read : Json.parse suffix = .ok v) : Decodes output (.ok v)
  | crash {f : CompileFailure} (kind : f.kind = .processCrash)
    (unread : ¬Succeeds (Json.parse output))
    (suffixUnread : ∀ suffix, fromBrace? output = some suffix → ¬Succeeds (Json.parse suffix)) :
    Decodes output (.error (.failure f))

theorem Json.KeepsDigitLimit.of_malformed {s : String} {what : Complaint} {location : Place}
    (h : read s = .error (.malformed what location)) : KeepsDigitLimit s := by
  intro n tooMany
  cases h.symm.trans tooMany

theorem Json.KeepsDigitLimit.parse_cases {s : String} (h : KeepsDigitLimit s) :
    (∃ v, Json.parse s = .ok v) ∨ ∃ message, Json.parse s = .error (.badDocument message) := by
  cases read : Json.parse s with
  | ok v => exact .inl ⟨v, rfl⟩
  | error f =>
    obtain ⟨message, rfl⟩ := h.parse f read
    exact .inr ⟨message, rfl⟩

theorem decodes (output : String) (whole : Json.KeepsDigitLimit output)
    (suffixes : ¬Succeeds (Json.parse output) →
      ∀ suffix, fromBrace? output = some suffix → Json.KeepsDigitLimit suffix) :
    Decodes output (decodeOutput output) := by
  unfold decodeOutput
  rcases whole.parse_cases with ⟨v, read⟩ | ⟨message, failed⟩
  · rw [read]
    exact .whole read
  · have unread : ¬Succeeds (Json.parse output) := failed ▸ not_succeeds_error _
    rw [failed]
    rcases afterBanner?_cases output with ⟨noBanner, same⟩ | ⟨suffix, banner, brace⟩
    · rw [noBanner]
      exact .crash rfl unread fun suffix brace => same suffix brace ▸ unread
    · rw [banner]
      rcases (suffixes unread suffix brace).parse_cases with ⟨v, read⟩ | ⟨message, failed⟩
      · simp only [Option.map_some, read]
        exact .fromBrace unread brace read
      · simp only [Option.map_some, failed]
        refine .crash rfl unread fun other found => ?_
        cases brace.symm.trans found
        exact failed ▸ not_succeeds_error _

/-! ## Banners -/

namespace Json

variable {banner document : List Char} {ms : List (String × Value)}

/-- What stands before the first brace of a banner and an object. -/
theorem noBrace_banner (noBrace : '\x7b' ∉ banner) (document : List Char) :
    '\x7b' ∉ banner ++ document.takeWhile isSpace := by
  intro mem
  rcases List.mem_append.1 mem with inBanner | inBlanks
  · exact noBrace inBanner
  · exact absurd (List.mem_takeWhile_imp inBlanks) (by decide)

/-- A banner in front of an object makes no other document of it. -/
theorem readWhole_banner (noBrace : '\x7b' ∉ banner)
    (object : readWhole document = .ok (.object ms)) {v : Value}
    (h : readWhole (banner ++ document) = .ok v) : v = .object ms := by
  obtain ⟨-, gap, ends, blank⟩ := readWhole_object object
  obtain ⟨inner, opens⟩ := readWhole_braced h (ends.after banner) blank
  -- A banner that is not blank would begin the text with something else than a brace.
  have same : skipSpace (banner ++ document) = skipSpace document := by
    rw [skipSpace, List.dropWhile_append] at opens ⊢
    split at opens
    · rename_i blankBanner
      rw [if_pos blankBanner]
      rfl
    · rename_i solid
      obtain ⟨c, more, begins⟩ := List.exists_cons_of_ne_nil (mt List.isEmpty_iff.2 solid)
      rw [begins, List.cons_append] at opens
      obtain ⟨rfl, -⟩ := List.cons.inj opens
      have mem : '\x7b' ∈ banner.dropWhile isSpace := begins ▸ List.mem_cons_self
      exact absurd ((List.dropWhile_suffix _).subset mem) noBrace
  have read := readWhole_congr object (readWhole_eq_ok.1 h).1 same
  exact Except.ok.inj (h.symm.trans read)

/-- From its first brace on, a banner and an object is that object. -/
theorem parse_fromBrace {banner document : String} (noBrace : '\x7b' ∉ banner.toList)
    (object : parse document = .ok (.object ms)) :
    ∃ suffix, fromBrace? (banner ++ document) = some suffix ∧ parse suffix = .ok (.object ms) := by
  have read := parse_eq_ok.1 object
  obtain ⟨⟨inner, opens⟩, -⟩ := readWhole_object read
  refine ⟨String.ofList ('\x7b' :: inner), ?_, ?_⟩
  · have split : banner ++ document =
        String.ofList (banner.toList ++ document.toList.takeWhile isSpace ++ '\x7b' :: inner) := by
      rw [← opens, skipSpace, List.append_assoc, List.takeWhile_append_dropWhile,
        ← String.toList_append, String.ofList_toList]
    rw [split]
    exact fromBrace?_append (noBrace_banner noBrace _) inner
  · refine parse_eq_ok.2 ?_
    rw [String.toList_ofList]
    refine readWhole_congr read ?_ (by rw [opens, skipSpace_cons (by decide)])
    intro c head
    cases head
    decide

end Json

/-- **A banner never changes the decoded output.** Whatever the output is, it is decoded to the
document that it is, to the one that it is from its first brace on, or to a crash of the process. -/
theorem decodeOutput_banner :
    (∀ (banner document : String) (ms : List (String × Value)), '\x7b' ∉ banner.toList →
      Json.parse document = .ok (.object ms) → Json.KeepsDigitLimit (banner ++ document) →
        decodeOutput (banner ++ document) = .ok (.object ms) ∧
          decodeOutput document = .ok (.object ms)) ∧
    ∀ output : String, Json.KeepsDigitLimit output →
      (¬Succeeds (Json.parse output) →
        ∀ suffix, fromBrace? output = some suffix → Json.KeepsDigitLimit suffix) →
      Decodes output (decodeOutput output) := by
  refine ⟨?_, decodes⟩
  intro banner document ms noBrace object limit
  refine ⟨?_, by rw [decodeOutput, object]⟩
  obtain ⟨suffix, brace, read⟩ := Json.parse_fromBrace noBrace object
  have decoded := decodes (banner ++ document) limit fun _ other found => by
    cases brace.symm.trans found
    exact .of_parse read
  generalize decodeOutput (banner ++ document) = result at decoded
  cases decoded with
  | whole readAll =>
    rw [Json.parse_eq_ok, String.toList_append] at readAll
    rw [Json.readWhole_banner noBrace (Json.parse_eq_ok.1 object) readAll]
  | fromBrace _ found readFound =>
    cases brace.symm.trans found
    rw [Except.ok.inj (readFound.symm.trans read)]
  | crash _ _ suffixUnread => exact absurd ⟨_, read⟩ (suffixUnread suffix brace)

/-- A banner that begins a list, in front of an object, and one that is a document of its own. -/
theorem decodeOutput_openBanner :
    Json.parse "\x7b\x7d" = .ok (.object []) ∧ Json.KeepsDigitLimit ("[1, " ++ "\x7b\x7d") ∧
      decodeOutput ("[1, " ++ "\x7b\x7d") = .ok (.object []) ∧
      Json.KeepsDigitLimit "NaN 0\x7b\x7d" ∧
        Decodes "NaN 0\x7b\x7d" (decodeOutput "NaN 0\x7b\x7d") := by
  have object : Json.parse "\x7b\x7d" = .ok (.object []) := rfl
  have inList : Json.read ("[1, " ++ "\x7b\x7d") = .error (.malformed .expectedComma ⟨1, 7, 6⟩) :=
    rfl
  have afterNumber : Json.read "NaN 0\x7b\x7d" = .error (.malformed .extraData ⟨1, 5, 4⟩) := rfl
  have brace : fromBrace? "NaN 0\x7b\x7d" = some "\x7b\x7d" := rfl
  refine ⟨object, .of_malformed inList,
    (decodeOutput_banner.1 _ _ _ (by decide) object (.of_malformed inList)).1,
    .of_malformed afterNumber, decodeOutput_banner.2 _ (.of_malformed afterNumber) ?_⟩
  intro _ suffix found
  cases brace.symm.trans found
  exact .of_parse object

end SelectorCatalog
