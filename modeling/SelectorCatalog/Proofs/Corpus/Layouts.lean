import SelectorCatalog.Proofs.Corpus.Normal
import SelectorCatalog.Proofs.Json.Shape

/-!
# Layouts of a compiler input

A compiler input may be a file of a folder, the source code of an explorer's answer, or that source
code in doubled braces. The three give contracts of one content or none at all
(`RawRecord.layouts_agree`).

That a text is read as an object tells the layouts apart, since no such text starts with two braces
(`Json.opens_once`). The coercions of the two readers then agree on texts and on what is missing,
and both readers end in the contract of one compiler input (`RawRecord.ofInput`).
-/

set_option autoImplicit false

namespace SelectorCatalog

/-! ## Braces -/

namespace Json

/-- No document starts with two braces, and no integer is read after them. -/
theorem read_doubled_brace (rest : List Char) : ∃ what place,
    read (String.ofList ('\x7b' :: '\x7b' :: rest)) = .error (.malformed what place) := by
  have whole : readWhole ('\x7b' :: '\x7b' :: rest) = fail .expectedName ('\x7b' :: rest) := rfl
  rw [read, String.toList_ofList, whole]
  exact ⟨_, _, rfl⟩

theorem read_of_parse {s : String} {v : Value} (h : parse s = .ok v) : read s = .ok v := by
  unfold parse at h
  cases found : read s with
  | error e =>
    rw [found] at h
    cases h
  | ok w =>
    rw [found] at h
    cases h
    rfl

end Json

/-! ## Fields -/

namespace Metadata

/-- A text, or null for what is missing. -/
inductive IsTextual : Value → Prop
  | text (s : String) : IsTextual (.text s)
  | missing : IsTextual .null

/-- An answer's text of a field that is a text or missing. -/
def answered (v : Value) : String := Text.trim (v.orElse (.text "")).display

theorem trim_display_orElse (v : Value) :
    Text.trim (v.orElse (.text "")).display = answered v := rfl

theorem answered_text (s : String) : answered (.text s) = Text.trim s := by
  unfold answered Value.orElse
  by_cases empty : s = ""
  · simp [empty, Value.isGiven]
  · simp [empty, Value.isGiven]

theorem answered_null : answered .null = "" := by decide

/-- **A compiler version is the same however it is trimmed.** -/
theorem version_answered {v : Value} (h : IsTextual v) :
    version (.text (answered v)) = version v := by
  cases h with
  | missing => rw [answered_null]; rfl
  | text s =>
    rw [answered_text]
    by_cases blank : Text.trim s = ""
    · by_cases empty : s = ""
      · subst empty
        rw [blank]
      · simp [version, Value.isGiven, blank, empty]
    · have filled : s ≠ "" := by
        rintro rfl
        exact blank (by decide)
      simp [version, Value.isGiven, blank, filled]

/-- **A declared name is the same however it is trimmed.** -/
theorem declaredName?_answered {v : Value} (h : IsTextual v) :
    declaredName? (.text (answered v)) = declaredName? v := by
  cases h with
  | missing => rw [answered_null]; rfl
  | text s =>
    rw [answered_text]
    by_cases blank : Text.trim s = ""
    · by_cases empty : s = ""
      · subst empty
        rw [blank]
      · simp [declaredName?, Value.isGiven, Value.asText, blank, empty]
    · have filled : s ≠ "" := by
        rintro rfl
        exact blank (by decide)
      simp [declaredName?, Value.isGiven, Value.asText, blank, filled]

end Metadata

/-- Contracts of one content: all that their id is made of, and the id. -/
structure Contract.SameContent (c d : Contract) : Prop where
  name : c.name = d.name
  compilerVersion : c.compilerVersion = d.compilerVersion
  sources : c.sources = d.sources
  settings : c.settings = d.settings
  id : c.id = d.id

theorem Contract.SameContent.symm {c d : Contract} (h : c.SameContent d) : d.SameContent c :=
  ⟨h.name.symm, h.compilerVersion.symm, h.sources.symm, h.settings.symm, h.id.symm⟩

theorem Contract.SameContent.trans {c d e : Contract} (h : c.SameContent d) (g : d.SameContent e) :
    c.SameContent e :=
  ⟨h.name.trans g.name, h.compilerVersion.trans g.compilerVersion, h.sources.trans g.sources,
    h.settings.trans g.settings, h.id.trans g.id⟩

namespace RawRecord

open RecordFlaw (lift)

/-- The fields of metadata that enter the content of a contract. -/
def contentFields : List String :=
  ["ContractName", "CompilerVersion", "OptimizationUsed", "Runs", "EVMVersion"]

/-! ## The contract of a compiler input -/

/-- The contract of a layout without address and constructor arguments. -/
def Layout.contract (found : Layout) (name version : String) : Contract where
  name := some name
  compilerVersion := some version
  sources := found.sources
  settings := found.settings
  sourceFormat := found.format

/-- The contract of a compiler input that is read, without address and constructor arguments. -/
def ofInput (metadata : List (String × Value)) (document : Except RecordFlaw Value) :
    Except RecordFlaw Contract := do
  let field (name : String) : Value := (Assoc.get? name metadata).getD .null
  let version ← Metadata.version (field "CompilerVersion")
  let settings ← lift (metadataSettings (.object metadata) (.bool false))
  let found ← standardInput (← document) settings
  let declared ← lift (Metadata.declaredName? (field "ContractName"))
  let name ← Metadata.primaryName (found.sources.map Prod.snd) declared
  finish (found.contract name version)

/-- The contract with an address and constructor arguments. -/
def completed (address : Option String) (args : Value) (c : Contract) : Contract :=
  { c with address := address, constructorArgs := args }

theorem sameContent_completed (address : Option String) (args : Value) (c : Contract) :
    (completed address args c).SameContent c := ⟨rfl, rfl, rfl, rfl, rfl⟩

theorem finish_completed (address : Option String) (args : Value) (c : Contract) :
    finish (completed address args c) = (finish c).map (completed address args) := by
  unfold finish Contract.withId
  by_cases unnamed : c.id.isEmpty = true
  · have same : (completed address args c).identify = c.identify := rfl
    rw [if_pos unnamed, if_pos (show (completed address args c).id.isEmpty = true from unnamed),
      same]
    cases c.identify <;> rfl
  · rw [if_neg unnamed, if_neg (show ¬(completed address args c).id.isEmpty = true from unnamed)]
    rfl

/-- A contract that is new is given the id of its content. -/
theorem finish_eq {c : Contract} {name version : String} (new : c.id = "")
    (named : c.name = some name) (versioned : c.compilerVersion = some version)
    (short : c.settings.HasShortRuns) :
    finish c = .ok { c with
      id := contentId Md5.hexDigest (c.sources.map Prod.snd) name version c.settings } := by
  have identified := Contract.identify_eq_ok.2 ⟨name, version, named, versioned, short, rfl⟩
  rw [finish, Contract.withId, new, if_pos (by rfl), identified]
  rfl

/-- The contract of a compiler input, from what each step reads. -/
theorem ofInput_eq {metadata : List (String × Value)} {document : Value} {version name : String}
    {settings : CompilerSettings} {found : Layout} {declared : Option String}
    (versioned :
      Metadata.version ((Assoc.get? "CompilerVersion" metadata).getD .null) = .ok version)
    (described : metadataSettings (.object metadata) (.bool false) = .ok settings)
    (input : standardInput document settings = .ok found)
    (declares :
      Metadata.declaredName? ((Assoc.get? "ContractName" metadata).getD .null) = .ok declared)
    (named : Metadata.primaryName (found.sources.map Prod.snd) declared = .ok name)
    (short : found.settings.HasShortRuns) :
    ofInput metadata (.ok document) = .ok { found.contract name version with
      id := contentId Md5.hexDigest (found.sources.map Prod.snd) name version found.settings } := by
  refine Eq.trans ?_ (finish_eq (c := found.contract name version) rfl rfl rfl short)
  simp only [ofInput, versioned, described, input, declares, named, lift, Except.mapError, ok_bind]

theorem standardInput_found (document : Value) (fallback : CompilerSettings) :
    Yields (standardInput document fallback) fun found =>
      found.sources.isEmpty = false ∧ found.format = .standardJson := by
  have filled (entries : Value) :
      Yields (sourceEntries entries) fun found => found.isEmpty = false := by
    unfold sourceEntries
    refine .skip fun ms => ?_
    dsimp only
    split
    · exact .throw _ _
    · rename_i some_left
      exact .pure (by simpa using some_left)
  unfold standardInput
  split
  · refine .skip fun language => ?_
    dsimp only
    split
    · exact .throw _ _
    · refine .skip fun _ => .bind (filled _) fun sources some_left => .skip fun settings => ?_
      exact .pure ⟨some_left, rfl⟩
  · exact .throw _ _

theorem contentTexts_texts (sources : List (String × String)) :
    Metadata.contentTexts (sources.map fun e => (e.1, .text e.2)) = .ok sources := by
  rw [Metadata.contentTexts, List.mapM_map, mapM_ok (g := id), List.map_id]
  exact fun _ _ => rfl

/-- The address that the metadata of a folder gives, under either name. -/
def folderAddress (metadata : List (String × Value)) : Option String :=
  Metadata.address? (((Assoc.get? "ContractAddress" metadata).getD .null).orElse
    ((Assoc.get? "address" metadata).getD .null))

/-- The constructor arguments that the metadata of a folder gives. -/
def folderArguments (metadata : List (String × Value)) : Value :=
  ((Assoc.get? "ConstructorArguments" metadata).getD .null).orElse .null

/-- **A folder with a compiler input gives its contract**, completed by an address and constructor
arguments. -/
theorem normalizeFolder_eq {payload : Value} {metadata files : List (String × Value)} {s : String}
    (described : payload.field "metadata" = .ok (.object metadata))
    (listed : payload.field "files" = .ok (.object files))
    (there : Assoc.get? "contract.json" files = some (.text s)) :
    normalizeFolder payload = (ofInput metadata (lift (Json.parse s))).map
      (completed (folderAddress metadata) (folderArguments metadata)) := by
  have given : (Value.object files).orElse (.object []) = .object files := by
    cases files with
    | nil => rfl
    | cons m rest => rfl
  have known : (Files.byName files).has "contract.json" = true := by
    rw [Files.has, there]
    rfl
  have content : (Files.byName files).content "contract.json" = .ok (.text s) := by
    rw [Files.content, there]
  unfold normalizeFolder ofInput
  simp only [described, listed, given, Value.field_object, Value.ofMember, filesOf, lift,
    Except.mapError, bind, Except.bind]
  cases version : Metadata.version ((Assoc.get? "CompilerVersion" metadata).getD .null) with
  | error e => rfl
  | ok v =>
    cases settings : metadataSettings (.object metadata) (.bool false) with
    | error e => rfl
    | ok fallback =>
      simp only [folderSources, known, if_true, content, lift, Except.mapError, bind, Except.bind]
      cases read : Json.parse s with
      | error e => rfl
      | ok document =>
        dsimp only
        cases input : standardInput document fallback with
        | error e => rfl
        | ok layout =>
          have ⟨some_left, format⟩ := standardInput_found _ _ layout input
          obtain ⟨sources, found, _⟩ := layout
          cases format
          have names : (sources.map fun e => (e.1, Value.text e.2)).isEmpty = false := by
            simpa using some_left
          simp only [pure, Except.pure, names, Bool.false_eq_true, if_false, metadataAddress,
            Value.field_object, Value.ofMember, bind, Except.bind, contentTexts_texts]
          cases declared :
            Metadata.declaredName? ((Assoc.get? "ContractName" metadata).getD .null) with
          | error e => rfl
          | ok name? =>
            dsimp only
            cases named : Metadata.primaryName (sources.map Prod.snd) name? with
            | error e => rfl
            | ok name =>
                exact finish_completed _ _ (Layout.contract ⟨sources, found, .standardJson⟩ name v)

/-! ## Source codes -/

/-- A text between braces that is read as a compiler input, unless an integer in it has too many
digits. -/
structure IsInputText (s : String) : Prop where
  opens : s.toList.head? = some '\x7b'
  closes : s.toList.getLast? = some '\x7d'
  reads : (∃ members, Json.read s = .ok (.object members) ∧ (Assoc.get? "sources" members).isSome) ∨
    ∃ n, Json.read s = .error (.tooManyDigits n)

/-- A source code that holds a text, bare or in braces of its own, with any blanks around it. -/
inductive Holds (s : String) : String → Prop
  | bare {before after : List Char} (blank_before : ∀ c ∈ before, Text.isBlank c = true)
      (blank_after : ∀ c ∈ after, Text.isBlank c = true) :
      Holds s (String.ofList (before ++ s.toList ++ after))
  | braced {before after : List Char} (blank_before : ∀ c ∈ before, Text.isBlank c = true)
      (blank_after : ∀ c ∈ after, Text.isBlank c = true) :
      Holds s (String.ofList (before ++ ('\x7b' :: s.toList ++ ['\x7d']) ++ after))

theorem isTrimmed_of_braces {s : List Char} (opens : s.head? = some '\x7b')
    (closes : s.getLast? = some '\x7d') :
    Text.IsTrimmed s where
  opens c first := by
    cases opens.symm.trans first
    decide
  ends c last := by
    cases closes.symm.trans last
    decide

namespace IsInputText

variable {s raw : String} (h : IsInputText s)

include h

theorem opens_once : "\x7b\x7b".toList.isPrefixOf s.toList = false := by
  rw [← Bool.not_eq_true, List.isPrefixOf_iff_prefix]
  rintro ⟨rest, split⟩
  obtain ⟨what, place, malformed⟩ := Json.read_doubled_brace rest
  have same : String.ofList ('\x7b' :: '\x7b' :: rest) = s := by
    rw [← String.ofList_toList (s := s), ← split]
    rfl
  rw [same] at malformed
  rcases h.reads with ⟨members, read, -⟩ | ⟨n, read⟩
  · cases malformed.symm.trans read
  · cases malformed.symm.trans read

/-- What stands between the blanks of a source code. -/
theorem trimList_of_holds (holds : Holds s raw) :
    Text.trimList raw.toList = s.toList ∨ Text.trimList raw.toList =
      '\x7b' :: s.toList ++ ['\x7d'] := by
  cases holds with
  | bare blank_before blank_after =>
    rw [String.toList_ofList]
    exact .inl ((isTrimmed_of_braces h.opens h.closes).trimList_padded blank_before blank_after)
  | braced blank_before blank_after =>
    rw [String.toList_ofList]
    refine .inr (Text.IsTrimmed.trimList_padded ?_ blank_before blank_after)
    exact isTrimmed_of_braces rfl (by rw [List.getLast?_append]; rfl)

/-- **Bare or in braces of its own, the text is read as one compiler input.** -/
theorem explorerSources_eq (holds : Holds s raw) (declared : String) (settings : CompilerSettings) :
    explorerSources raw declared settings = sourceDocument s.toList >>= fun v =>
      standardInput v settings := by
  obtain ⟨rest, starts⟩ := List.head?_eq_some_iff.1 h.opens
  obtain ⟨front, ends⟩ := List.getLast?_eq_some_iff.1 h.closes
  rcases h.trimList_of_holds holds with bare | braced
  · have single : "\x7b".toList.isPrefixOf s.toList = true := by
      rw [starts]
      rfl
    simp only [explorerSources, bare, h.opens_once, Bool.false_and, Bool.false_eq_true, if_false,
      single, if_true]
    rcases h.reads with ⟨members, read, sources⟩ | ⟨n, read⟩
    · simp only [sourceDocument, String.ofList_toList, read, bind, Except.bind, sources, if_true]
    · simp only [sourceDocument, String.ofList_toList, read, bind, Except.bind]
  · have doubled : "\x7b\x7b".toList.isPrefixOf ('\x7b' :: s.toList ++ ['\x7d']) = true := by
      rw [starts]
      rfl
    have closing : "\x7d\x7d".toList.isSuffixOf ('\x7b' :: s.toList ++ ['\x7d']) = true := by
      rw [List.isSuffixOf_iff_suffix, ends]
      exact ⟨'\x7b' :: front, by simp⟩
    have inner : (('\x7b' :: s.toList ++ ['\x7d']).drop 1).dropLast = s.toList := by simp
    simp only [explorerSources, braced, doubled, closing, Bool.and_self, if_true, inner]

theorem trim_ne_empty (holds : Holds s raw) : (Text.trim raw).isEmpty = false := by
  obtain ⟨rest, starts⟩ := List.head?_eq_some_iff.1 h.opens
  rw [Text.trim]
  rcases h.trimList_of_holds holds with bare | braced
  · simp [bare, starts]
  · simp [braced]

end IsInputText

/-! ## Answers -/

/-- The settings that an answer gives are those of the metadata with the same fields. -/
theorem metadataSettings_answer {answer metadata : List (String × Value)}
    (shared : ∀ name ∈ contentFields, Assoc.get? name answer = Assoc.get? name metadata) :
    metadataSettings (.object answer) (.text "0") =
      metadataSettings (.object metadata) (.bool false) := by
  have used := shared "OptimizationUsed" (by decide)
  have runs := shared "Runs" (by decide)
  have machine := shared "EVMVersion" (by decide)
  have zero : Metadata.flag (.text "0") = Metadata.flag (.bool false) := by decide
  have flag : Metadata.flag ((Assoc.get? "OptimizationUsed" metadata).getD (.text "0")) =
      Metadata.flag ((Assoc.get? "OptimizationUsed" metadata).getD (.bool false)) := by
    cases Assoc.get? "OptimizationUsed" metadata with
    | none => exact zero
    | some v => rfl
  simp only [metadataSettings, Value.fieldD, Value.field, Value.field?, Value.members, Except.map,
    used, runs, machine, bind, Except.bind, flag]

theorem withLibraries_missing (found : Layout) :
    withLibraries found (Metadata.libraries .null) = found.settings := rfl

/-- An answer with the fields of some metadata, without libraries, and a source code. -/
structure Answers (answer metadata : List (String × Value)) (code : String) : Prop where
  shared : ∀ name ∈ contentFields, Assoc.get? name answer = Assoc.get? name metadata
  library : Assoc.get? "Library" answer = none
  code : Assoc.get? "SourceCode" answer = some (.text code)

/-- Metadata with texts, or nothing, in the fields that enter the content, and a compiler that is
not Vyper. -/
structure IsPlainMetadata (metadata : List (String × Value)) : Prop where
  textual : ∀ name ∈ contentFields, Metadata.IsTextual ((Assoc.get? name metadata).getD .null)
  solidity : ¬"vyper".toList <+: (Text.lower
    (Metadata.answered ((Assoc.get? "CompilerVersion" metadata).getD .null))).toList

/-- **An answer with a compiler input gives its contract**, completed by an address and constructor
arguments. -/
theorem normalizeAnswer_eq {payload : Value} {answer metadata : List (String × Value)}
    {s raw : String} (plain : IsPlainMetadata metadata) (input : IsInputText s)
    (result : explorerResult payload = .ok (.object answer)) (answers : Answers answer metadata raw)
    (holds : Holds s raw) (origin : String) :
    ∃ address args, normalizeAnswer payload origin =
      (ofInput metadata (sourceDocument s.toList)).map (completed address args) := by
  have other : "vyper".toList.isPrefixOf (Text.lower
      (Metadata.answered ((Assoc.get? "CompilerVersion" metadata).getD .null))).toList = false := by
    rw [← Bool.not_eq_true, List.isPrefixOf_iff_prefix]
    exact plain.solidity
  have code : ((Assoc.get? "SourceCode" answer).getD .null).orElse (.text "") = .text raw := by
    have filled : raw ≠ "" := by
      rintro rfl
      exact absurd (input.trim_ne_empty holds) (by decide)
    rw [answers.code]
    exact if_pos (by simpa [Value.isGiven] using filled)
  have filled : (Metadata.answered ((Assoc.get? "SourceCode" answer).getD .null)).isEmpty =
      false := by
    rw [Metadata.answered, code]
    exact input.trim_ne_empty holds
  refine ⟨Metadata.address? ((((Assoc.get? "ContractAddress" answer).getD .null).orElse
    ((Assoc.get? "address" answer).getD .null)).orElse
      (.ofText? (Metadata.addressOfOrigin? origin))),
    (let args := (((Assoc.get? "ConstructorArguments" answer).getD .null).orElse (.text "")).display
      if args.isEmpty then .null else .text args), ?_⟩
  unfold normalizeAnswer ofInput
  simp only [result, optionalText, Value.field_object, Value.ofMember, lift, Except.mapError, bind,
    Except.bind, pure, Except.pure, answers.shared "CompilerVersion" (by decide),
    answers.shared "ContractName" (by decide), Metadata.trim_display_orElse, other,
    Bool.false_eq_true, if_false]
  -- What is left of the two coercions agrees field by field.
  simp only [Metadata.version_answered (plain.textual "CompilerVersion" (by decide)),
    Metadata.declaredName?_answered (plain.textual "ContractName" (by decide)), filled,
    Bool.false_eq_true, if_false, metadataSettings_answer answers.shared]
  simp only [code, Value.display_text, input.explorerSources_eq holds, answers.library,
    Option.getD_none, withLibraries_missing]
  cases version : Metadata.version ((Assoc.get? "CompilerVersion" metadata).getD .null) with
  | error e => rfl
  | ok v =>
    cases settings : metadataSettings (.object metadata) (.bool false) with
    | error e => rfl
    | ok fallback =>
      cases read : sourceDocument s.toList with
      | error e => rfl
      | ok document =>
        simp only [bind, Except.bind]
        cases input : standardInput document fallback with
        | error e => rfl
        | ok layout =>
          simp only [metadataAddress, Value.field_object, Value.ofMember, bind, Except.bind]
          cases declared :
            Metadata.declaredName? ((Assoc.get? "ContractName" metadata).getD .null) with
          | error e => rfl
          | ok name? =>
            dsimp only
            cases named : Metadata.primaryName (layout.sources.map Prod.snd) name? with
            | error e => rfl
            | ok name => exact finish_completed _ _ (layout.contract name v)

/-! ## Records -/

/-- A folder with metadata and a compiler input. -/
structure IsFolderWith (r : RawRecord) (metadata : List (String × Value)) (s : String) : Prop where
  kind : r.kind = .folder
  described : r.payload.field "metadata" = .ok (.object metadata)
  input : ∃ files, r.payload.field "files" = .ok (.object files) ∧
    Assoc.get? "contract.json" files = some (.text s)

/-- An answer of an explorer with the fields of some metadata and a source code. -/
structure IsAnswerWith (r : RawRecord) (metadata : List (String × Value))
    (raw : String) : Prop where
  kind : r.kind = .explorerAnswer
  answer : ∃ answer, explorerResult r.payload = .ok (.object answer) ∧ Answers answer metadata raw

/-- A record gives the contract of a step up to address and constructor arguments, or fails as the
step does. -/
def GivesContentOf (r : RawRecord) (step : Except RecordFlaw Contract) : Prop :=
  ∃ address args, r.normalize = (step.map (completed address args)).mapError (⟨r.origin, ·⟩)

section

variable {r : RawRecord} {metadata : List (String × Value)} {s raw : String}

theorem IsFolderWith.givesContentOf (h : r.IsFolderWith metadata s) :
    r.GivesContentOf (ofInput metadata (lift (Json.parse s))) := by
  obtain ⟨kind, described, files, listed, there⟩ := h
  refine ⟨folderAddress metadata, folderArguments metadata, ?_⟩
  rw [normalize, kind]
  exact congrArg _ (normalizeFolder_eq described listed there)

theorem IsAnswerWith.givesContentOf (h : r.IsAnswerWith metadata raw)
    (plain : IsPlainMetadata metadata) (input : IsInputText s) (holds : Holds s raw) :
    r.GivesContentOf (ofInput metadata (sourceDocument s.toList)) := by
  obtain ⟨kind, answer, result, answers⟩ := h
  obtain ⟨address, args, same⟩ := normalizeAnswer_eq plain input result answers holds r.origin
  refine ⟨address, args, ?_⟩
  rw [normalize, kind]
  exact congrArg _ same

theorem GivesContentOf.failure {e : RecordFlaw} (h : r.GivesContentOf (.error e)) :
    ∃ m, r.normalize = .error m := by
  obtain ⟨address, args, same⟩ := h
  exact ⟨_, same⟩

theorem GivesContentOf.contract {c : Contract} (h : r.GivesContentOf (.ok c)) :
    ∃ d, r.normalize = .ok d ∧ d.SameContent c := by
  obtain ⟨address, args, same⟩ := h
  exact ⟨_, same, sameContent_completed address args c⟩

/-- A text that a layout holds is read in one way, also if an integer in it is too long. -/
theorem IsInputText.sourceDocument_eq (h : IsInputText s) :
    sourceDocument s.toList = lift (Json.parse s) := by
  rcases h.reads with ⟨members, read, -⟩ | ⟨n, read⟩
  all_goals
    rw [sourceDocument, String.ofList_toList, Json.parse, read]
    rfl

end

/-- **The layouts of a compiler input agree.** A folder with the input as a file, an answer with the
input as its source code, and an answer with the input in doubled braces give contracts of one name,
compiler version, sources, settings and id, whatever blanks stand around the source codes; or none
of them gives one. -/
theorem layouts_agree {metadata : List (String × Value)} (plain : IsPlainMetadata metadata)
    {s : String} (input : IsInputText s) {before after before' after' : List Char}
    (blank : ∀ c ∈ before ++ after, Text.isBlank c = true)
    (blank' : ∀ c ∈ before' ++ after', Text.isBlank c = true) {folder bare braced : RawRecord}
    (in_file : folder.IsFolderWith metadata s)
    (in_answer : bare.IsAnswerWith metadata (String.ofList (before ++ s.toList ++ after)))
    (in_braces : braced.IsAnswerWith metadata
      (String.ofList (before' ++ ('\x7b' :: s.toList ++ ['\x7d']) ++ after'))) :
    (∃ c d e, folder.normalize = .ok c ∧ bare.normalize = .ok d ∧ braced.normalize = .ok e ∧
      d.SameContent c ∧ e.SameContent c) ∨
    ∃ m n o, folder.normalize = .error m ∧ bare.normalize = .error n ∧
      braced.normalize = .error o := by
  have ⟨blank_before, blank_after⟩ := List.forall_mem_append.1 blank
  have ⟨blank_before', blank_after'⟩ := List.forall_mem_append.1 blank'
  have first := in_file.givesContentOf
  have second := in_answer.givesContentOf plain input (.bare blank_before blank_after)
  have third := in_braces.givesContentOf plain input (.braced blank_before' blank_after')
  rw [input.sourceDocument_eq] at second third
  cases outcome : ofInput metadata (lift (Json.parse s)) with
  | error e =>
    rw [outcome] at first second third
    obtain ⟨m, first⟩ := first.failure
    obtain ⟨n, second⟩ := second.failure
    obtain ⟨o, third⟩ := third.failure
    exact .inr ⟨m, n, o, first, second, third⟩
  | ok c =>
    rw [outcome] at first second third
    obtain ⟨c', first, same⟩ := first.contract
    obtain ⟨d, second, same'⟩ := second.contract
    obtain ⟨e, third, same''⟩ := third.contract
    exact .inl ⟨c', d, e, first, second, third, same'.trans same.symm, same''.trans same.symm⟩

/-! ## One input in three layouts -/

/-- Metadata of a contract as a corpus has them, to be trimmed and put into lower case. -/
def vaultMetadata : List (String × Value) :=
  [("ContractName", .text " src/Vault.sol:Vault "),
    ("CompilerVersion", .text " v0.8.20+commit.a1b79de6\n"), ("OptimizationUsed", .text "Yes"),
    ("Runs", .text " 1000 "), ("EVMVersion", .text "Paris"),
    ("ContractAddress", .text "0xABCDEF0000000000000000000000000000000001"),
    ("ConstructorArguments", .text "00ff")]

/-- A compiler input of two sources, which leaves the optimizer to the metadata. -/
def vaultInput : List (String × Value) :=
  [("language", .text "Solidity"),
    ("sources", .object [("src/Vault.sol", .object [("content", .text "contract Vault {}")]),
      ("src/Base.sol", .object [("content", .text "contract Base {}")])]),
    ("settings", .object [("remappings", .list [.text "@lib/=lib/"]),
      ("libraries", .object [("src/Vault.sol", .object [("Math", .text "0x01")])]),
      ("viaIR", .bool true)])]

/-- The text of this input. -/
def vaultInputText : String := Json.write (.object vaultInput)

/-- A folder with the input. -/
def vaultFolder : RawRecord where
  kind := .folder
  origin := "vault"
  payload := .object [("metadata", .object vaultMetadata),
    ("files", .object [("contract.json", .text vaultInputText), ("notes.txt", .text "")])]

/-- An answer with a source code. -/
def answerWithCode (raw : String) : RawRecord where
  kind := .explorerAnswer
  origin := "vault.json"
  payload := .object (("SourceCode", .text raw) :: vaultMetadata)

/-- The settings of the input and of the metadata. -/
def vaultSettings : CompilerSettings where
  optimizerEnabled := true
  optimizerRuns := 1000
  evmVersion := some "paris"
  remappings := ["@lib/=lib/"]
  libraries := ⟨[("src/Vault.sol", ⟨[("Math", "0x01")], by decide⟩)], by decide⟩
  viaIr := true

theorem plain_vaultInput : Json.Plain (.object vaultInput) := by
  have content (s : String) : Json.Plain (.object [("content", .text s)]) :=
    .object (List.nodup_singleton _) (List.forall_mem_singleton.2 (.text s))
  have library : Json.Plain (.object [("Math", .text "0x01")]) :=
    .object (by decide) (List.forall_mem_singleton.2 (.text _))
  have remappings : Json.Plain (.list [.text "@lib/=lib/"]) :=
    .list (List.forall_mem_singleton.2 (.text _))
  refine .object (by decide) ?_
  simp only [vaultInput, List.forall_mem_cons, List.not_mem_nil, false_implies, implies_true,
    and_true]
  refine ⟨.text _, .object (by decide) ?_, .object (by decide) ?_⟩
  · simp only [List.forall_mem_cons, List.not_mem_nil, false_implies, implies_true, and_true]
    exact ⟨content _, content _⟩
  · simp only [List.forall_mem_cons, List.not_mem_nil, false_implies, implies_true, and_true]
    exact ⟨remappings, .object (by decide) (List.forall_mem_singleton.2 library), .bool _⟩

/-- The text of an object that can be read back is held by layouts. -/
theorem isInputText_write {members : List (String × Value)} (plain : Json.Plain (.object members))
    (sources : (Assoc.get? "sources" members).isSome) :
    IsInputText (Json.write (.object members)) where
  opens := by simp [Json.write]
  closes := by
    have text : (Json.write (.object members)).toList =
        '\x7b' :: (Json.writeMembers members).toList ++ ['\x7d'] := by
      simp [Json.write]
    rw [text, List.getLast?_append]
    rfl
  reads := .inl ⟨_, Json.read_of_parse (Json.parse_write plain), sources⟩

theorem isInputText_vaultInputText :
    IsInputText vaultInputText := isInputText_write plain_vaultInput rfl

theorem isPlainMetadata_vaultMetadata : IsPlainMetadata vaultMetadata where
  textual name mem := by
    simp only [contentFields, List.mem_cons, List.not_mem_nil, or_false] at mem
    rcases mem with rfl | rfl | rfl | rfl | rfl
    all_goals exact .text _
  solidity := by decide +kernel

theorem isFolderWith_vaultFolder : vaultFolder.IsFolderWith vaultMetadata vaultInputText :=
  ⟨rfl, rfl, _, rfl, rfl⟩

end RawRecord

/-- The contract of the folder. -/
def Contract.vault : Contract where
  name := some "Vault"
  compilerVersion := some "v0.8.20+commit.a1b79de6"
  sources := [("src/Vault.sol", "contract Vault {}"), ("src/Base.sol", "contract Base {}")]
  settings := RawRecord.vaultSettings
  sourceFormat := .standardJson
  address := some "0xabcdef0000000000000000000000000000000001"
  constructorArgs := .text "00ff"
  id := contentId Md5.hexDigest ["contract Vault {}", "contract Base {}"] "Vault"
    "v0.8.20+commit.a1b79de6" RawRecord.vaultSettings

namespace RawRecord

open RecordFlaw (lift)

theorem normalize_vaultFolder : vaultFolder.normalize = .ok .vault := by
  have short : vaultSettings.HasShortRuns := show Text.IsShort 1000 by decide
  have read : (lift (Json.parse vaultInputText) : Except RecordFlaw Value) =
      .ok (.object vaultInput) := by
    rw [vaultInputText, Json.parse_write plain_vaultInput]
    rfl
  have given : standardInput (.object vaultInput)
      { optimizerEnabled := true, optimizerRuns := 1000, evmVersion := some "paris" } =
        .ok ⟨Contract.vault.sources, vaultSettings, .standardJson⟩ := rfl
  have versioned : Metadata.version ((Assoc.get? "CompilerVersion" vaultMetadata).getD .null) =
      .ok "v0.8.20+commit.a1b79de6" := rfl
  have declares : Metadata.declaredName? ((Assoc.get? "ContractName" vaultMetadata).getD .null) =
      .ok (some "Vault") := rfl
  have named : Metadata.primaryName (Contract.vault.sources.map Prod.snd) (some "Vault") =
      .ok "Vault" := rfl
  have files : vaultFolder.payload.field "files" =
      .ok (.object [("contract.json", .text vaultInputText), ("notes.txt", .text "")]) := rfl
  rw [normalize]
  show Except.mapError _ (normalizeFolder vaultFolder.payload) = _
  rw [normalizeFolder_eq rfl files rfl, read, ofInput_eq versioned rfl given declares named short]
  rfl

theorem contract_vaultFolder : vaultFolder.contract = .ok .vault := by
  have given : vaultFolder.contract = vaultFolder.normalize := rfl
  rw [given, normalize_vaultFolder]

/-- A folder and two answers with one input give contracts of one content, the vault. -/
theorem layouts_agree_vault :
    IsPlainMetadata vaultMetadata ∧ IsInputText vaultInputText ∧
    vaultFolder.IsFolderWith vaultMetadata vaultInputText ∧ vaultFolder.normalize = .ok .vault ∧
    ∃ d e : Contract,
      (answerWithCode (String.ofList ([' '] ++ vaultInputText.toList ++ ['\n']))).normalize =
        .ok d ∧
      (answerWithCode (String.ofList ([] ++ ('\x7b' :: vaultInputText.toList ++ ['\x7d']) ++
        []))).normalize = .ok e ∧
      d.SameContent .vault ∧ e.SameContent .vault := by
  have plain := isPlainMetadata_vaultMetadata
  have input := isInputText_vaultInputText
  have in_file := isFolderWith_vaultFolder
  have in_answer (raw : String) : (answerWithCode raw).IsAnswerWith vaultMetadata raw := by
    refine ⟨rfl, _, rfl, fun name mem => ?_, rfl, rfl⟩
    simp only [contentFields, List.mem_cons, List.not_mem_nil, or_false] at mem
    rcases mem with rfl | rfl | rfl | rfl | rfl
    all_goals rfl
  refine ⟨plain, input, in_file, normalize_vaultFolder, ?_⟩
  have blank : ∀ c ∈ [' '] ++ ['\n'], Text.isBlank c = true := by
    rw [List.forall_mem_append, List.forall_mem_singleton, List.forall_mem_singleton]
    decide
  have nothing : ∀ c ∈ ([] : List Char) ++ [], Text.isBlank c = true := by simp
  obtain ⟨c, d, e, first, second, third, same, same'⟩ | ⟨m, -, -, failed, -⟩ :=
    layouts_agree plain input blank nothing in_file (in_answer _) (in_answer _)
  · cases first.symm.trans normalize_vaultFolder
    exact ⟨d, e, second, third, same, same'⟩
  · cases failed.symm.trans normalize_vaultFolder

end RawRecord

end SelectorCatalog
