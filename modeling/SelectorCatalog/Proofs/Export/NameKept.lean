import SelectorCatalog.Proofs.Export.Document
import SelectorCatalog.Proofs.Solidity.Names

/-!
# Whether a contract keeps its name

The name of the contract that counts is the declared one without its qualifier, or one that the
sources declare. An export declares it again, and it is kept if it is clean: not empty and without
blanks around it. A name that the sources declare is clean; a declared one is exactly if something
other than a blank follows its last colon (`Metadata.isClean_iff`), because blanks are trimmed
before the qualifier is taken away and not after it. With its name a contract keeps its id
(`Metadata.selectName_again`).
-/

set_option autoImplicit false

namespace SelectorCatalog

open RecordFlaw (lift)

namespace Metadata

/-! ## Selecting a name -/

/-- The name of the contract that counts, given the name that the metadata declares, if any. -/
def selectName (contents : List String) (declared : Option String) : Except RecordFlaw String := do
  primaryName contents (← lift (declaredName? (.ofText? declared)))

/-- A name that is not empty and has no blanks around it. -/
structure IsClean (name : String) : Prop where
  filled : name ≠ ""
  trimmed : Text.IsTrimmed name.toList

/-- Something other than a blank follows the last colon of the declared name, if it has a colon. -/
def EndsInName (declared : Option String) : Prop :=
  ∀ given qualifier last, declared = some given →
    (Text.trim given).toList = qualifier ++ ':' :: last →
    ':' ∉ last → ∃ c, last.head? = some c ∧ Text.isBlank c = false

variable {contents : List String} {declared : Option String} {name : String}

theorem selectName_some (given : String) :
    selectName contents (some given) =
      if Text.trim given = "" then primaryName contents none
      else .ok (Solidity.unqualified (Text.trim given)) := by
  unfold selectName
  by_cases empty : given = ""
  · subst empty
    rfl
  · have filled : (Value.text given).isGiven = true := by simpa [Value.isGiven] using empty
    simp only [Value.ofText?, declaredName?, filled, if_true, Value.asText, ok_bind,
      String.isEmpty_iff]
    split <;> rfl

/-- A name is selected as the declared one without its qualifier or, if none is declared, among the
declarations of the sources. -/
theorem selectName_cases (chosen : selectName contents declared = .ok name) :
    (∃ given, declared = some given ∧ Text.trim given ≠ "" ∧
        name = Solidity.unqualified (Text.trim given)) ∨
      (∀ given, declared = some given → Text.trim given = "") ∧ Solidity.IsIdentifier name := by
  have of_sources (found : primaryName contents none = .ok name) : Solidity.IsIdentifier name := by
    rw [primaryName] at found
    split at found
    · rename_i other primary
      cases found
      exact Solidity.isIdentifier_of_primaryOf? primary
    · cases found
  cases declared with
  | none => exact .inr ⟨by simp, of_sources chosen⟩
  | some given =>
    rw [selectName_some] at chosen
    split at chosen
    · rename_i blank
      refine .inr ⟨?_, of_sources chosen⟩
      rintro _ ⟨⟩
      exact blank
    · rename_i filled
      exact .inl ⟨given, rfl, filled, (Except.ok.inj chosen).symm⟩

theorem colon_not_mem_of_selectName (chosen : selectName contents declared = .ok name) :
    ':' ∉ name.toList := by
  obtain ⟨given, -, -, rfl⟩ | ⟨-, found⟩ := selectName_cases chosen
  · exact Solidity.colon_not_mem_unqualified _
  · intro mem
    exact (found.inner ':' mem).2 rfl

theorem isClean_of_isIdentifier (h : Solidity.IsIdentifier name) : IsClean name :=
  ⟨h.filled, Text.isTrimmed_of_all fun c mem => (h.inner c mem).1⟩

/-- **A selected name is clean exactly if something follows the last colon of the declared one.** -/
theorem isClean_iff (chosen : selectName contents declared = .ok name) :
    IsClean name ↔ EndsInName declared := by
  obtain ⟨given, rfl, filled, rfl⟩ | ⟨blank, found⟩ := selectName_cases chosen
  · constructor
    · rintro clean _ qualifier last ⟨⟩ split no_colon
      have same := Solidity.unqualified_append split no_colon
      rw [same] at clean
      obtain ⟨c, rest, starts⟩ :=
        List.exists_cons_of_ne_nil (by simpa using clean.filled : last ≠ [])
      refine ⟨c, by simp [starts], clean.trimmed.opens c ?_⟩
      simp [starts]
    · intro ends
      have trimmed := Text.isTrimmed_trim given
      by_cases colon : ':' ∈ (Text.trim given).toList
      · obtain ⟨qualifier, last, split, no_colon⟩ := Solidity.exists_qualifier colon
        obtain ⟨c, first, visible⟩ := ends given qualifier last rfl split no_colon
        obtain ⟨rest, rfl⟩ := List.head?_eq_some_iff.1 first
        rw [Solidity.unqualified_append split no_colon]
        refine ⟨by simp, ?_, ?_⟩
        · intro d opens
          rw [String.toList_ofList, List.head?_cons, Option.some.injEq] at opens
          exact opens ▸ visible
        · intro d closes
          apply trimmed.ends d
          rw [split, List.getLast?_append, List.getLast?_cons_cons]
          rw [String.toList_ofList] at closes
          rw [closes]
          rfl
      · rw [Solidity.unqualified_of_not_mem colon]
        exact ⟨filled, trimmed⟩
  · refine iff_of_true (isClean_of_isIdentifier found) ?_
    intro given qualifier last same split
    rw [blank given same] at split
    simp at split

/-- **A selected name that is declared is selected again exactly if it is clean.** -/
theorem selectName_self_iff (chosen : selectName contents declared = .ok name) :
    selectName contents (some name) = .ok name ↔ IsClean name := by
  constructor
  · intro again
    obtain ⟨given, same, filled, own⟩ | ⟨-, found⟩ := selectName_cases again
    · cases same
      have trimmed : Text.trim name = name := by
        have no_colon : ':' ∉ (Text.trim name).toList := fun mem =>
          colon_not_mem_of_selectName chosen (Text.mem_of_mem_trim mem)
        rw [Solidity.unqualified_of_not_mem no_colon] at own
        exact own.symm
      refine ⟨trimmed ▸ filled, ?_⟩
      rw [← trimmed]
      exact Text.isTrimmed_trim name
    · exact isClean_of_isIdentifier found
  · intro clean
    rw [selectName_some, Text.trim_eq_self clean.trimmed, if_neg clean.filled,
      Solidity.unqualified_of_not_mem (colon_not_mem_of_selectName chosen)]

end Metadata

/-! ## Loading an exported contract again -/

/-- What a folder with the two documents that are exported of a contract gives. -/
def Contract.ReloadsAs (c d : Contract) : Prop :=
  ∃ (payload : Value) (files : List (String × Value)),
    payload.field "metadata" = .ok c.metadata ∧ payload.field "files" = .ok (.object files) ∧
      Assoc.get? "contract.json" files = some (.text (Json.writeLines c.exportedInput)) ∧
      RawRecord.normalizeFolder payload = .ok d

namespace RawRecord

theorem finish_name (c : Contract) : Yields (finish c) fun d => d.name = c.name := by
  refine Yields.mapError ?_ _
  unfold Contract.withId
  split
  · exact .map fun _ _ => rfl
  · exact .ok rfl

/-- The exported compiler input gives the name that is selected when the contract's name is
declared. -/
theorem ofInput_name {c : Contract} (h : c.IsNormal) (distinct : (Assoc.names c.sources).Nodup) :
    Yields (ofInput c.metadataMembers (.ok c.exportedInput)) fun d =>
      d.name = (Metadata.selectName (c.sources.map Prod.snd) c.name).toOption := by
  have settings :
      (lift (metadataSettings (.object c.metadataMembers) (.bool false)) : Except RecordFlaw _) =
      .ok { optimizerEnabled := c.settings.optimizerEnabled
            optimizerRuns := c.settings.optimizerRuns
            evmVersion := c.settings.evmVersion } := by
    rw [metadataSettings_exported h]
    rfl
  unfold ofInput
  simp only [settings, ok_bind]
  refine .skip fun version => .bind (standardInput_exported h id) fun found same => ?_
  refine .bind .self fun declared asked => .bind .self fun name chosen => ?_
  intro d finished
  rw [same.1, Contract.entries_sourceMap distinct] at chosen
  have selected : Metadata.selectName (c.sources.map Prod.snd) c.name = .ok name :=
    bind_eq_ok.2 ⟨declared, asked, chosen⟩
  rw [selected]
  exact finish_name _ d finished

end RawRecord

namespace Contract.ReloadsAs

variable {c d : Contract}

theorem isNormal (h : c.ReloadsAs d) : d.IsNormal := by
  obtain ⟨payload, -, -, -, -, loaded⟩ := h
  exact (RawRecord.normalizeFolder_isNormal payload d loaded).1

/-- What is loaded again is given by the exported compiler input. -/
theorem ofInput_eq (h : c.ReloadsAs d) (normal : c.IsNormal) :
    (RawRecord.ofInput c.metadataMembers (.ok c.exportedInput)).map
      (RawRecord.completed c.address c.constructorArgs) = .ok d := by
  obtain ⟨payload, files, described, listed, there, loaded⟩ := h
  have read := Json.parse_writeLines (plain_exportedInput normal.settings.runs)
  rw [← RawRecord.normalizeFolder_exported normal described listed there read]
  exact loaded

/-- What is loaded again has its name from the name that was exported. -/
theorem name (h : c.ReloadsAs d) (normal : c.IsNormal) (distinct : (Assoc.names c.sources).Nodup) :
    d.name = (Metadata.selectName (c.sources.map Prod.snd) c.name).toOption :=
  Yields.map (P := fun d => d.name = (Metadata.selectName (c.sources.map Prod.snd) c.name).toOption)
    (RawRecord.ofInput_name normal distinct) d (h.ofInput_eq normal)

/-- What is loaded again under the same name has the same id. -/
theorem id (h : c.ReloadsAs d) (normal : c.IsNormal) (distinct : (Assoc.names c.sources).Nodup)
    (named : d.name = c.name) : d.id = c.id := by
  have same :=
    Yields.map (P := fun d => d.SameBuild c) (RawRecord.ofInput_exported normal distinct) d
    (h.ofInput_eq normal)
  have content : d.identify = c.identify := by
    rw [identify, identify, named, same.compilerVersion, same.sources, same.settings]
  exact Except.ok.inj (h.isNormal.identified.symm.trans (content.trans normal.identified))

end Contract.ReloadsAs

/-! ## Declaring a name again -/

namespace Metadata

/-- **A selected name is kept exactly if it is clean.** It has no colon. It is clean exactly if
something other than a blank follows the last colon of the declared name, or none is declared. It is
selected again when it is declared itself exactly if it is clean, and so a contract that is exported
and loaded again keeps its name exactly then, and with its name its id. -/
theorem selectName_again {contents : List String} {declared : Option String} {name : String}
    (chosen : selectName contents declared = .ok name) :
    ':' ∉ name.toList ∧ (IsClean name ↔ EndsInName declared) ∧
      (selectName contents (some name) = .ok name ↔ IsClean name) ∧
      ∀ c d : Contract, c.IsNormal → (Assoc.names c.sources).Nodup → c.name = some name →
        c.sources.map Prod.snd = contents → c.ReloadsAs d →
        (d.name = c.name ↔ IsClean name) ∧ (d.name = c.name → d.id = c.id) := by
  refine ⟨colon_not_mem_of_selectName chosen, isClean_iff chosen, selectName_self_iff chosen, ?_⟩
  intro c d normal distinct named same reloads
  refine ⟨?_, reloads.id normal distinct⟩
  rw [← selectName_self_iff chosen, reloads.name normal distinct, named, same]
  constructor
  · exact ok_of_toOption
  · intro again
    rw [again]
    rfl

/-- The contract of a folder, exported and loaded again, has another layout only. -/
theorem reloadsAs_emptyFolder :
    (Contract.ofEmptyFolder "B").ReloadsAs { Contract.ofEmptyFolder "B" with sourceFormat :=
      .standardJson } := by
  have normal : (Contract.ofEmptyFolder "B").IsNormal :=
    (RawRecord.normalize_isNormal (.emptyFolder "B") _ rfl).1
  refine ⟨.object [("metadata", (Contract.ofEmptyFolder "B").metadata), ("files",
    .object [("contract.json",
    .text (Json.writeLines (Contract.ofEmptyFolder "B").exportedInput))])], _, rfl, rfl, rfl, ?_⟩
  have given : RawRecord.standardInput (Contract.ofEmptyFolder "B").exportedInput {} =
      .ok ⟨[("main.sol", "")], {}, .standardJson⟩ := rfl
  have versioned : Metadata.version ((Assoc.get? "CompilerVersion"
      (Contract.ofEmptyFolder "B").metadataMembers).getD .null) = .ok "0.8.20" := rfl
  have declares : Metadata.declaredName? ((Assoc.get? "ContractName"
      (Contract.ofEmptyFolder "B").metadataMembers).getD .null) = .ok (some "B") := rfl
  have named : Metadata.primaryName [""] (some "B") = .ok "B" := rfl
  rw [RawRecord.normalizeFolder_exported normal rfl rfl rfl
      (Json.parse_writeLines (Contract.plain_exportedInput normal.settings.runs)),
    RawRecord.ofInput_eq versioned rfl given declares named (show Text.IsShort 200 by decide)]
  rfl

/-- The name of such a folder, declared together with a path, is kept by an export. -/
theorem selectName_again_qualified :
    selectName [""] (some " a.sol:B ") = .ok "B" ∧ selectName [""] (some "B") = .ok "B" ∧
      ∃ d, (Contract.ofEmptyFolder "B").ReloadsAs d ∧ d.name = some "B" ∧
        d.id = (Contract.ofEmptyFolder "B").id := by
  have chosen : selectName [""] (some " a.sol:B ") = .ok "B" := rfl
  have clean : IsClean "B" := by
    refine ⟨by decide, Text.isTrimmed_of_all fun c mem => ?_⟩
    obtain rfl : c = 'B' := List.mem_singleton.1 mem
    decide
  have normal : (Contract.ofEmptyFolder "B").IsNormal :=
    (RawRecord.normalize_isNormal (.emptyFolder "B") _ rfl).1
  have distinct : (Assoc.names (Contract.ofEmptyFolder "B").sources).Nodup := List.nodup_singleton _
  obtain ⟨-, -, again, kept⟩ := selectName_again chosen
  obtain ⟨name, id⟩ := kept _ _ normal distinct rfl rfl reloadsAs_emptyFolder
  exact ⟨chosen, again.2 clean, _, reloadsAs_emptyFolder, name.2 clean, id (name.2 clean)⟩

/-- A name that is declared with a blank after its colon is another one when it is declared
again. -/
theorem selectName_loses_blank :
    selectName ["contract A {}"] (some "A: B") = .ok " B" ∧
      selectName ["contract A {}"] (some " B") = .ok "B" := by
  constructor <;> rfl

end Metadata

end SelectorCatalog
