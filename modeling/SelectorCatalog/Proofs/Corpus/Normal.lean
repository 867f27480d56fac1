import SelectorCatalog.Proofs.Corpus.Storable
import SelectorCatalog.Proofs.Json.DistinctNames
import SelectorCatalog.Proofs.Text.LowerCase

/-!
# Contracts of a corpus are in normal form

What a record gives as compiler version, machine version or address is trimmed or put in lower case
once, and reading it again leaves it as it is. So the contract of a record is in normal form
(`RawRecord.normalize_isNormal`): its id is that of its content, and every text in it that a rule of
the metadata gave is what the rule makes of this text. Its sources have different names, if the
record has no object with two members of one name.
-/

set_option autoImplicit false

namespace SelectorCatalog

/-! ## Texts of values -/

namespace Value

theorem orElse_orElse (v other : Value) : (v.orElse other).orElse other = v.orElse other := by
  unfold orElse
  by_cases given : v.isGiven = true
  · rw [if_pos given, if_pos given]
  · rw [if_neg given, ite_self]

theorem orElse_ofNonempty (s : String) : (if s.isEmpty then null else text s).orElse null =
    if s.isEmpty then null else text s := by
  split
  · rfl
  · rename_i filled
    exact if_pos (by simpa [isGiven] using filled)

end Value

/-! ## Rules that leave their results as they are -/

namespace Metadata

theorem version_eq_ok {v : Value} {s : String} :
    version v = .ok s ↔ v.isGiven = true ∧ Text.trim v.display = s ∧ s ≠ "" := by
  unfold version
  by_cases given : v.isGiven = true
  · by_cases filled : Text.trim v.display = ""
    · simp only [given, if_true, String.isEmpty_iff, filled, reduceCtorEq, true_and, false_iff,
        not_and, not_not]
      exact Eq.symm
    · simp only [given, if_true, String.isEmpty_iff, filled, if_false, Except.ok.injEq, true_and]
      exact ⟨fun same => ⟨same, same ▸ filled⟩, And.left⟩
  · simp [given]

theorem version_again {v : Value} {s : String} (h : version v = .ok s) :
    version (.text s) = .ok s := by
  obtain ⟨-, rfl, filled⟩ := version_eq_ok.1 h
  exact version_eq_ok.2 ⟨by simpa [Value.isGiven] using filled, Text.trim_trim _, filled⟩

theorem machine_again {v : Value} {s : String} (h : machine v = some s) :
    machine (.text s) = some s := by
  unfold machine at h ⊢
  dsimp only at h
  rw [Option.ite_none_right_eq_some, Option.ite_none_left_eq_some, Option.some.injEq,
    Bool.or_eq_true, not_or] at h
  obtain ⟨-, ⟨filled, other⟩, rfl⟩ := h
  have same : Text.lower (Text.trim (Text.lower (Text.trim v.display))) =
      Text.lower (Text.trim v.display) := by
    rw [Text.trim_eq_self (Text.isTrimmed_lower (Text.isTrimmed_trim _)), Text.lower_lower]
  simp only [Value.isGiven, Value.display_text, same, filled, other]
  rfl

theorem address?_again {v : Value} {s : String} (h : address? v = some s) :
    address? (.text s) = some s := by
  unfold address? at h ⊢
  rw [Option.ite_none_right_eq_some, Option.some.injEq] at h
  obtain ⟨given, rfl⟩ := h
  have filled : Text.lower v.display ≠ "" := mt Text.lower_eq_empty.1 (Value.display_ne_empty given)
  rw [if_pos (by simpa [Value.isGiven] using filled), Value.display_text, Text.lower_lower]

end Metadata

/-- Settings that the rules of metadata leave as they are. -/
structure CompilerSettings.IsNormal (s : CompilerSettings) : Prop where
  runs : s.HasShortRuns
  machine : ∀ v, s.evmVersion = some v → Metadata.machine (.text v) = some v

/-- A contract with the id of its content whose texts the rules of metadata leave as they are. -/
structure Contract.IsNormal (c : Contract) : Prop where
  identified : c.identify = .ok c.id
  settings : c.settings.IsNormal
  version : ∃ v, c.compilerVersion = some v ∧ Metadata.version (.text v) = .ok v
  address : ∀ a, c.address = some a → Metadata.address? (.text a) = some a
  constructorArgs : c.constructorArgs.orElse .null = c.constructorArgs

theorem Contract.IsNormal.isStorable {c : Contract} (h : c.IsNormal) : c.IsStorable :=
  ⟨RawRecord.identify_ne_empty h.identified, h.settings.runs⟩

namespace RawRecord

/-! ## Settings -/

theorem standardSettings_isNormal (raw : Value) {fallback : CompilerSettings}
    (h : fallback.IsNormal) :
    Yields (standardSettings raw fallback) CompilerSettings.IsNormal := by
  intro s read
  refine ⟨standardSettings_short raw fallback s read, ?_⟩
  have machine : Yields (standardSettings raw fallback) fun s =>
      ∀ v, s.evmVersion = some v → Metadata.machine (.text v) = some v := by
    unfold standardSettings
    iterate 4 refine .skip fun _ => ?_
    refine .skip fun machine => ?_
    iterate 6 refine .skip fun _ => ?_
    refine .pure fun v given => ?_
    cases own : Metadata.machine machine with
    | some w =>
      simp only [own, Option.orElse_some, Option.some.injEq] at given
      exact given ▸ Metadata.machine_again own
    | none =>
      simp only [own, Option.orElse_none] at given
      exact h.machine v given
  exact machine s read

theorem metadataSettings_isNormal (metadata unused : Value) :
    Yields (metadataSettings metadata unused) CompilerSettings.IsNormal := by
  intro s read
  refine ⟨metadataSettings_short metadata unused s read, ?_⟩
  have machine : Yields (metadataSettings metadata unused) fun s =>
      ∀ v, s.evmVersion = some v → Metadata.machine (.text v) = some v := by
    unfold metadataSettings
    iterate 4 refine .skip fun _ => ?_
    exact .pure fun v given => Metadata.machine_again given
  exact machine s read

/-! ## Sources -/

theorem sourceEntries_nodup {entries : Value} (h : entries.HasDistinctNames) :
    Yields (sourceEntries entries) fun found => (Assoc.names found).Nodup := by
  unfold sourceEntries
  refine .bind (P := fun ms => (Assoc.names ms).Nodup) (Yields.mapError ?_ _) fun ms distinct => ?_
  · cases h with
    | object distinct _ => exact .ok distinct
    | _ => exact .error _ _
  · dsimp only
    split
    · exact .throw _ _
    · refine .pure (Assoc.nodup_filterMap (fun m e shown => ?_) distinct)
      split at shown
      · obtain ⟨v, -, rfl⟩ := Option.map_eq_some_iff.1 shown
        rfl
      · cases shown
        rfl
      · cases shown

variable {D : Prop}

theorem standardInput_isNormal {document : Value} {fallback : CompilerSettings}
    (h : fallback.IsNormal) (distinct : D → document.HasDistinctNames) :
    Yields (standardInput document fallback) fun found =>
      found.settings.IsNormal ∧ (D → (Assoc.names found.sources).Nodup) := by
  unfold standardInput
  split
  · refine .skip fun language => ?_
    dsimp only
    split
    · exact .throw _ _
    refine .bind (.under fun d => ((distinct d).field "sources").mapError _) fun sources named => ?_
    refine .bind (.under fun d => sourceEntries_nodup ((named d).orElse .object_nil))
      fun sources nodup => ?_
    refine .bind (Yields.mapError (.skip fun raw => standardSettings_isNormal _ h) _) ?_
    exact fun settings normal => .pure ⟨normal, nodup⟩
  · exact .throw _ _

/-- No two files of a folder have one name. -/
def Files.HaveDistinctNames : Files → Prop
  | .byName contents => (Value.object contents).HasDistinctNames
  | _ => True

theorem filesOf_haveDistinctNames {v : Value} (h : v.HasDistinctNames) :
    Yields (filesOf v) Files.HaveDistinctNames := by
  cases h with
  | object distinct each => exact .ok (.object distinct each)
  | list _ => exact .ok trivial
  | text _ => exact .ok trivial
  | _ => exact .error _ _

theorem solidity_nodup {files : Files} (h : files.HaveDistinctNames) :
    Yields files.solidity fun found => (Assoc.names found).Nodup := by
  unfold Files.solidity
  split
  · refine .ok (((List.mergeSort_perm _ _).map Prod.fst).nodup_iff.2 ?_)
    exact h.names.sublist (List.filter_sublist.map Prod.fst)
  · exact .ok List.nodup_nil
  · split
    · exact .error _ _
    split
    · split
      · exact .error _ _
      · exact .ok List.nodup_nil
    · exact .error _ _
  · exact .ok List.nodup_nil

theorem folderSources_isNormal {files : Files} {settings : CompilerSettings} (h : settings.IsNormal)
    (distinct : D → files.HaveDistinctNames) :
    Yields (folderSources files settings) fun found =>
      found.2.1.IsNormal ∧ (D → (Assoc.names found.1).Nodup) := by
  unfold folderSources
  split
  · refine .skip fun content => ?_
    split
    · rename_i s
      refine .bind ((Json.parse_hasDistinctNames s).mapError _) fun document named => ?_
      refine .bind (standardInput_isNormal h fun _ : D => named) fun found normal =>
        .pure ⟨normal.1, fun d => ?_⟩
      simpa [Assoc.names, Function.comp_def] using normal.2 d
    · exact .throw _ _
  split
  · exact .skip fun _ => .pure ⟨h, fun _ => List.nodup_singleton _⟩
  split
  · exact .throw _ _
  · exact .bind (.under fun d => (solidity_nodup (distinct d)).mapError _) fun found nodup =>
      .pure ⟨h, nodup⟩

theorem explorerSources_isNormal (raw declared : String) {settings : CompilerSettings}
    (h : settings.IsNormal) :
    Yields (explorerSources raw declared settings) fun found =>
      found.settings.IsNormal ∧ (Assoc.names found.sources).Nodup := by
  have read (s : List Char) : Yields (sourceDocument s) Value.HasDistinctNames := by
    unfold sourceDocument
    split
    · rename_i v found
      exact .ok (Json.inherits_hasDistinctNames.read _ v found)
    · exact .error _ _
    · exact .error _ _
  have standard {document : Value} (named : document.HasDistinctNames) :
      Yields (standardInput document settings) fun found =>
        found.settings.IsNormal ∧ (Assoc.names found.sources).Nodup := fun found done =>
    (standardInput_isNormal h (fun _ : True => named) found done).imp_right fun nodup =>
      nodup trivial
  unfold explorerSources
  dsimp only
  split
  · exact .bind (read _) fun document named => standard named
  split
  · refine .bind (read _) fun document named => ?_
    split
    · split
      · exact standard named
      · exact .bind (sourceEntries_nodup named) fun found nodup => .pure ⟨h, nodup⟩
    · exact .throw _ _
  · exact .pure ⟨h, List.nodup_singleton _⟩

theorem withLibraries_isNormal (found : Layout) (libraries : OrderedMap String)
    (h : found.settings.IsNormal) : (withLibraries found libraries).IsNormal := by
  unfold withLibraries
  split
  · exact h
  · exact ⟨h.runs, h.machine⟩

theorem names_contentTexts {sources : List (String × Value)} :
    Yields (Metadata.contentTexts sources) fun texts => Assoc.names texts =
      Assoc.names sources := by
  unfold Metadata.contentTexts
  induction sources with
  | nil => exact .pure rfl
  | cons source rest ih =>
    rw [List.mapM_cons]
    refine .bind (P := fun text => text.1 = source.1) ?_ fun text same => ?_
    · split
      · exact .ok rfl
      · exact .error _ _
    · refine .bind ih fun texts others => .pure ?_
      rw [Assoc.names, List.map_cons, same]
      exact congrArg (source.1 :: ·) others

/-! ## Contracts -/

/-- A contract that was given its id is in normal form if all else in it is. -/
theorem finish_isNormal {c : Contract} (unnamed : c.id = "") (settings : c.settings.IsNormal)
    (version : ∃ v, c.compilerVersion = some v ∧ Metadata.version (.text v) = .ok v)
    (address : ∀ a, c.address = some a → Metadata.address? (.text a) = some a)
    (constructorArgs : c.constructorArgs.orElse .null = c.constructorArgs) :
    Yields (finish c) fun d => d.IsNormal ∧ d.sources = c.sources := by
  refine Yields.mapError ?_ _
  rw [Contract.withId, unnamed, if_pos (by rfl)]
  refine .map fun id found => ⟨⟨?_, settings, version, address, constructorArgs⟩, rfl⟩
  exact found

/-- **A folder gives a contract in normal form**, whose sources have different names if all members
of the record have. -/
theorem normalizeFolder_isNormal (payload : Value) :
    Yields (normalizeFolder payload) fun c =>
      c.IsNormal ∧ (payload.HasDistinctNames → (Assoc.names c.sources).Nodup) := by
  unfold normalizeFolder
  refine .skip fun metadata => ?_
  refine .bind (.under fun d : payload.HasDistinctNames => (d.field "files").mapError _)
    fun given named => ?_
  dsimp only
  split
  · refine .skip fun spelled => ?_
    refine .bind (fun _ => Metadata.version_again) fun version again => ?_
    refine .bind ((metadataSettings_isNormal _ _).mapError _) fun settings normal => ?_
    refine .bind (.under fun d =>
      (filesOf_haveDistinctNames ((named d).orElse .object_nil)).mapError _)
      fun files distinct => ?_
    refine .bind (folderSources_isNormal normal distinct) ?_
    rintro ⟨sources, settings, format⟩ ⟨normal, nodup⟩
    dsimp only
    split
    · exact .throw _ _
    iterate 3 refine .skip fun _ => ?_
    refine .bind (names_contentTexts.mapError _) fun texts same => ?_
    iterate 2 refine .skip fun _ => ?_
    intro c finished
    have all := finish_isNormal rfl normal ⟨version, rfl, again⟩ (fun a => Metadata.address?_again)
      (Value.orElse_orElse _ _) c finished
    refine ⟨all.1, fun d => ?_⟩
    rw [all.2, same]
    exact nodup d
  · exact .throw _ _

/-- **An answer of an explorer gives a contract in normal form**, whose sources have different
names. -/
theorem normalizeAnswer_isNormal (payload : Value) (origin : String) :
    Yields (normalizeAnswer payload origin) fun c => c.IsNormal ∧
      (Assoc.names c.sources).Nodup := by
  unfold normalizeAnswer
  refine .skip fun result => .skip fun _ => ?_
  dsimp only
  split
  · exact .throw _ _
  refine .bind (fun _ => Metadata.version_again) fun version again => .skip fun raw => ?_
  split
  · exact .throw _ _
  refine .skip fun declared => ?_
  refine .bind ((metadataSettings_isNormal _ _).mapError _) fun settings normal => ?_
  refine .bind (explorerSources_isNormal _ _ normal) fun found normal => ?_
  iterate 5 refine .skip fun _ => ?_
  intro c finished
  have all := finish_isNormal rfl (withLibraries_isNormal found _ normal.1) ⟨version, rfl, again⟩
    (fun a => Metadata.address?_again) (Value.orElse_ofNonempty _) c finished
  exact ⟨all.1, all.2 ▸ normal.2⟩

/-- **The contract of a record is in normal form.** -/
theorem normalize_isNormal (r : RawRecord) :
    Yields r.normalize fun c =>
      c.IsNormal ∧ (r.payload.HasDistinctNames → (Assoc.names c.sources).Nodup) := by
  refine Yields.mapError ?_ _
  split
  · exact normalizeFolder_isNormal _
  · exact fun c read => (normalizeAnswer_isNormal _ _ c read).imp_right fun nodup _ => nodup
  · exact .error _ _

theorem normalize_of_contract {r : RawRecord} {c : Contract} (h : r.contract = .ok c) :
    r.normalize = .ok c := by
  unfold contract at h
  split at h
  · cases h
  · exact h

end RawRecord

end SelectorCatalog
