import SelectorCatalog.Corpus.Load
import SelectorCatalog.Proofs.Contract.StoredForm
import SelectorCatalog.Proofs.Text.Numerals

/-!
# Every contract of a corpus can be stored and read back

Whatever a record holds, the contract that it gives has an id, and a number of optimizer runs that a
stored text can hold (`RawRecord.contract_isStorable`).
-/

set_option autoImplicit false

namespace SelectorCatalog

/-! ## Settings -/

theorem Metadata.runs_short (v : Value) : Yields (Metadata.runs v) Text.IsShort := by
  have standard : Text.IsShort 200 := by decide
  unfold Metadata.runs
  split
  · exact Yields.ok standard
  · dsimp only
    split
    · exact Yields.ok standard
    · exact (Text.readInteger_short _).mapError _

/-- A contract with an id whose settings a stored text can hold. -/
structure Contract.IsStorable (c : Contract) : Prop where
  named : c.id ≠ ""
  runs : c.settings.HasShortRuns

namespace RawRecord

open CompilerSettings (HasShortRuns)

theorem standardSettings_short (raw : Value) (fallback : CompilerSettings) :
    Yields (standardSettings raw fallback) HasShortRuns := by
  unfold standardSettings
  refine .skip fun _ => .skip fun _ => .skip fun runs => ?_
  refine .bind (Metadata.runs_short runs) fun runs short => ?_
  -- The number of runs is settled; the other members do not touch it.
  iterate 7 refine .skip fun _ => ?_
  exact .pure short

theorem metadataSettings_short (metadata unused : Value) :
    Yields (metadataSettings metadata unused) HasShortRuns := by
  unfold metadataSettings
  refine .skip fun _ => .skip fun runs => ?_
  refine .bind (Metadata.runs_short runs) fun runs short => ?_
  exact .skip fun _ => .pure short

theorem standardInput_short (document : Value) (fallback : CompilerSettings) :
    Yields (standardInput document fallback) fun found => found.settings.HasShortRuns := by
  unfold standardInput
  split
  · refine .skip fun language => ?_
    dsimp only
    split
    · exact .throw _ _
    · refine .skip fun _ => .skip fun sources => ?_
      refine .bind (Yields.mapError (.skip fun raw => standardSettings_short _ fallback) _) ?_
      exact fun settings short => .pure short
  · exact .throw _ _

theorem folderSources_short (files : Files) {settings : CompilerSettings}
    (h : settings.HasShortRuns) :
    Yields (folderSources files settings) fun found => found.2.1.HasShortRuns := by
  unfold folderSources
  split
  · refine .skip fun content => ?_
    split
    · refine .skip fun document => ?_
      exact .bind (standardInput_short document settings) fun found short => .pure short
    · exact .throw _ _
  split
  · exact .skip fun _ => .pure h
  split
  · exact .throw _ _
  · exact .skip fun _ => .pure h

theorem explorerSources_short (raw declared : String) {settings : CompilerSettings}
    (h : settings.HasShortRuns) :
    Yields (explorerSources raw declared settings) fun found => found.settings.HasShortRuns := by
  unfold explorerSources
  dsimp only
  split
  · exact .skip fun document => standardInput_short document settings
  split
  · refine .skip fun document => ?_
    split
    · split
      · exact standardInput_short _ settings
      · exact .skip fun _ => .pure h
    · exact .throw _ _
  · exact .pure h

theorem withLibraries_short (found : Layout) (libraries : OrderedMap String)
    (h : found.settings.HasShortRuns) : (withLibraries found libraries).HasShortRuns := by
  unfold withLibraries
  split
  · exact h
  · exact h

theorem identify_ne_empty {c : Contract} {id : String} (h : c.identify = .ok id) : id ≠ "" := by
  obtain ⟨name, version, -, -, -, rfl⟩ := Contract.identify_eq_ok.1 h
  rintro empty
  have length := congrArg String.length empty
  rw [contentId, Md5.length_hexDigest] at length
  cases length

/-- A contract that was given its id is storable: the id is a digest if it was none before. -/
theorem finish_isStorable {c : Contract} (short : c.settings.HasShortRuns) :
    Yields (finish c) Contract.IsStorable := by
  refine Yields.mapError ?_ _
  intro d e
  rw [Contract.withId] at e
  split at e
  · refine Yields.map (P := Contract.IsStorable) ?_ d e
    intro id found
    exact ⟨identify_ne_empty found, short⟩
  · rename_i given
    cases e
    exact ⟨by simpa using given, short⟩

theorem normalizeFolder_isStorable (payload : Value) :
    Yields (normalizeFolder payload) Contract.IsStorable := by
  unfold normalizeFolder
  refine .skip fun metadata => .skip fun given => ?_
  split
  · refine .skip fun _ => .skip fun version => ?_
    refine .bind ((metadataSettings_short _ _).mapError _) fun settings short => ?_
    refine .skip fun files => .bind (folderSources_short files short) fun found short => ?_
    dsimp only
    split
    · exact .throw _ _
    iterate 6 refine .skip fun _ => ?_
    exact finish_isStorable short
  · exact .throw _ _

theorem normalizeAnswer_isStorable (payload : Value) (origin : String) :
    Yields (normalizeAnswer payload origin) Contract.IsStorable := by
  unfold normalizeAnswer
  refine .skip fun result => .skip fun _ => ?_
  dsimp only
  split
  · exact .throw _ _
  refine .skip fun version => .skip fun raw => ?_
  split
  · exact .throw _ _
  refine .skip fun declared => ?_
  refine .bind ((metadataSettings_short _ _).mapError _) fun settings short => ?_
  refine .bind (explorerSources_short _ _ short) fun found short => ?_
  iterate 5 refine .skip fun _ => ?_
  exact finish_isStorable (withLibraries_short found _ short)

/-- **Whatever a record holds, the contract that it gives can be stored and read back.** -/
theorem contract_isStorable (r : RawRecord) : Yields r.contract Contract.IsStorable := by
  unfold contract
  split
  · exact .error _ _
  · refine Yields.mapError ?_ _
    split
    · exact normalizeFolder_isStorable _
    · exact normalizeAnswer_isStorable _ _
    · exact .error _ _

end RawRecord

end SelectorCatalog
