import SelectorCatalog.Proofs.Database.Kept
import SelectorCatalog.Proofs.Export.Confinement
import SelectorCatalog.Proofs.Export.Document
import SelectorCatalog.Proofs.Json.Lines
import SelectorCatalog.Proofs.Corpus.Reading

/-!
# An exported folder is loaded again

An export writes two documents beside the sources (`Export.at?_writeFolder`), and the record of the
folder holds them as they were written (`Export.Exported.payload`). So what reading the folder gives
is compiled in the same way as the row that was exported (`Export.reload_exported`), however the
sources were named.
-/

set_option autoImplicit false

namespace SelectorCatalog

/-! ## Texts that are written -/

theorem Text.lineFeeds_eq_self : ∀ {s : List Char}, '\r' ∉ s → lineFeeds s = s
  | [], _ => rfl
  | c :: rest, h => by
    have ⟨other, later⟩ := not_or.1 (mt List.mem_cons.2 h)
    rw [lineFeeds, lineFeeds_eq_self later]
    · rintro r rfl
      exact absurd rfl other
    · rintro rfl
      exact absurd rfl other

namespace Corpus

variable {s : String} (plain : '\r' ∉ s.toList)

include plain

theorem fileText_toList : fileText s.toList = s := by
  rw [fileText, Text.lineFeeds_eq_self plain, String.ofList_toList]

theorem lenientText_bytes : lenientText (Export.bytes s) = s := by
  have decoded : Text.decodeReplacing (Export.bytes s) = s.toList := by
    simp [Text.decodeReplacing, Export.bytes, Text.decodeUnits_utf8, Function.comp_def]
  rw [lenientText, decoded, Text.lineFeeds_eq_self plain, String.ofList_toList]

theorem holds_bytes {v : Value} (read : Json.parse s = .ok v) :
    Holds (some (Export.bytes s)) (some v) :=
  .document rfl ((fileText_toList plain).symm ▸ read)

end Corpus

/-! ## Records of folders -/

namespace Corpus

/-- What reading a dataset gives for one of its folders. -/
def IsRecordOf (t : Tree) (root : String) (start : Location) (names : List String)
    (r : RawRecord) : Prop :=
  ∃ metadata, t.at? (start ++ names ++ [metadataName]) = some (.file metadata) ∧
    folderRecord ((Path.ofText root).join ⟨.relative, names⟩) (metadataIn t start (names, metadata))
      (openedFiles t (start ++ names) (filesIn names (t.below start))) = .ok r

theorem mem_ofReadings_of_whole {r : RawRecord} {readings : List (Except Fault RawRecord)}
    (whole : (CorpusStream.ofReadings readings).stop = none) (mem : .ok r ∈ readings) :
    r ∈ (CorpusStream.ofReadings readings).records := by
  induction readings with
  | nil => cases mem
  | cons reading rest ih =>
    cases reading with
    | error f => cases whole
    | ok first =>
      rcases List.mem_cons.1 mem with same | later
      · cases same
        exact List.mem_cons_self
      · exact List.mem_cons_of_mem _ (ih whole later)

/-- The record of a folder is among those of the dataset, if nothing stops the reading. -/
theorem IsRecordOf.mem_folderRecords {t : Tree} (listed : t.IsWellFormed) {root : String}
    (named : root ≠ "") {start : Location} (there : t.directory? (.ofText root) = some start)
    (whole : (folderRecords t root).stop = none) {names : List String} {r : RawRecord}
    (h : IsRecordOf t root start names r) : r ∈ (folderRecords t root).records := by
  obtain ⟨metadata, described, read⟩ := h
  rw [folderRecords_eq named there] at whole ⊢
  exact mem_ofReadings_of_whole whole
    (List.mem_map.2 ⟨(names, metadata), (mem_folders listed).2 described, read⟩)

end Corpus

/-! ## Exported folders -/

namespace Export

open Corpus (IsRecordOf metadataName)
open RawRecord (ofInput)

variable {folder : Path} {c : Contract} {t t' : Tree}

theorem keepsListing_writeFolder (folder : Path) (c : Contract) :
    TreeStep.Relates Tree.KeepsListing (writeFolder folder c) := by
  have order := Tree.isPreorder_keepsListing
  refine (Tree.keepsListing_makeDirectories folder).bind order fun _ => ?_
  refine (relates_writeSources order fun _ _ => Tree.keepsListing_place _ _).bind order fun _ => ?_
  exact (Tree.keepsListing_write _ _).bind order fun _ => Tree.keepsListing_write _ _

/-! ## The record of an exported folder -/

section

variable (listed : t.IsWellFormed) (runs : c.settings.HasShortRuns)
  (text : ∃ s, c.constructorArgs = .ofText? s) {root : String} {start : Location}
    {names : List String}
  (there : HoldsDocuments t (start ++ names) c)

include runs text

theorem documentOf_metadataIn (start : Location) (names : List String) :
    Corpus.documentOf (Corpus.metadataIn t start (names, bytes (Json.writeLines c.metadata))) =
      .ok (if t.closed.contains (start ++ names ++ [metadataName]) then none
        else some c.metadata) := by
  have plain := Contract.plain_metadata runs text
  have holds :=
    Corpus.holds_bytes (Json.carriageReturn_not_mem_writeLines plain) (Json.parse_writeLines plain)
  rw [Corpus.metadataIn, Tree.opened]
  split
  · rfl
  · exact holds.documentOf

include there

theorem exists_isRecordOf : ∃ r, IsRecordOf t root start names r := by
  have read := Corpus.folderRecord_eq ((Path.ofText root).join ⟨.relative, names⟩)
    (Corpus.metadataIn t start (names, bytes (Json.writeLines c.metadata)))
    (Corpus.openedFiles t (start ++ names) (Corpus.filesIn names (t.below start)))
  rw [documentOf_metadataIn runs text start names] at read
  exact ⟨_, _, there.metadata, read⟩

include listed

/-- **The record of a folder with the two documents holds both**, whatever other files are in the
folder, unless a file of it may not be opened. -/
theorem payload_of_isRecordOf {r : RawRecord} (reading : IsRecordOf t root start names r) :
    r.kind = .folder ∧ (t.closed ≠ [] ∧ r.payload = .null ∨
      ∃ files, r.payload = .object [("metadata", c.metadata), ("files", .object files)] ∧
        Assoc.get? "contract.json" files = some (.text (Json.writeLines c.exportedInput))) := by
  obtain ⟨metadata, described, read⟩ := reading
  have record : Corpus.IsFolderRecord t root start (names, metadata) r :=
    Corpus.isFolderRecord_of_folderRecord listed root read
  obtain rfl : metadata = bytes (Json.writeLines c.metadata) := by
    simpa using described.symm.trans there.metadata
  have holds := documentOf_metadataIn (t := t) runs text start names
  refine ⟨record.kind, ?_⟩
  obtain ⟨nothing | ⟨_, _, -, -, shut⟩, payload⟩ | ⟨-, document, files, found,
      payload, distinct, each⟩ :=
    record.payload
  · refine .inl ⟨fun all_open => ?_, payload⟩
    cases nothing.documentOf.symm.trans (by simpa [all_open] using holds)
  · refine .inl ⟨fun all_open => ?_, payload⟩
    simp [Tree.opened, all_open] at shut
  · right
    obtain rfl : document = c.metadata := by
      have same := Except.ok.inj (found.documentOf.symm.trans holds)
      split at same
      · cases same
      · exact Option.some.inj same
    have source : Corpus.isSource "contract.json" = true := by decide
    have content := Corpus.lenientText_bytes
      (Json.carriageReturn_not_mem_writeLines (Contract.plain_exportedInput runs))
    have listed := (each "contract.json" _).2 ⟨source, _, there.input, rfl⟩
    rw [content] at listed
    exact ⟨files, payload, (Assoc.get?_eq_some_iff distinct).2 listed⟩

/-- The record of such a folder gives what the exported compiler input gives. -/
theorem normalize_of_isRecordOf (normal : c.IsNormal) {r : RawRecord}
    (reading : IsRecordOf t root start names r) :
    t.closed ≠ [] ∧ (∃ e, r.normalize = .error e) ∨
    r.normalize = ((ofInput c.metadataMembers (.ok c.exportedInput)).map
      (RawRecord.completed c.address c.constructorArgs)).mapError (⟨r.origin, ·⟩) := by
  obtain ⟨kind, ⟨shut, payload⟩ | ⟨files, payload, input⟩⟩ :=
    payload_of_isRecordOf listed runs text there reading
  · refine .inl ⟨shut, ?_⟩
    rw [RawRecord.normalize, kind, payload]
    exact ⟨_, rfl⟩
  right
  have described : r.payload.field "metadata" = .ok c.metadata := by
    rw [payload]
    rfl
  have given : r.payload.field "files" = .ok (.object files) := by
    rw [payload]
    rfl
  rw [RawRecord.normalize, kind]
  exact congrArg (Except.mapError _)
    (RawRecord.normalizeFolder_exported normal described given input
    (Json.parse_writeLines (Contract.plain_exportedInput runs)))

end

/-- **An exported folder that is loaded again gives the contract that was exported.** A row that
loading added is read back as the contract of a record. Once it is exported, whatever the tables and
the tree became in between, the folder has a record, which reading a dataset around the folder
yields unless some file stops the reading, and if the record gives a contract, this has the sources,
settings, compiler version, address and constructor arguments of the row. -/
theorem reload_exported {before : Database} {options : LoadOptions} {corpus : CorpusStream}
    (distinct : ∀ r ∈ corpus.records, r.payload.HasDistinctNames) {id : String} {row : ContractRow}
    (fresh : before.row? id = none) (added : (before.load options corpus).2.row? id = some row)
    {db : Database} (kept : db.contract? id = row.contract.map some) {output : String} {t t' : Tree}
    (listed : t.IsWellFormed) {folder : Path}
    (exported : exportContract db id output t = (.ok folder, t')) {root : String}
    (named : root ≠ "") {start : Location} (there : t'.directory? (.ofText root) = some start)
    {names : List String} (below : start ++ names = folder.location) :
    ∃ c, row.contract = .ok c ∧
      (∃ origin ∈ corpus.records, ∃ original, origin.contract = .ok original ∧ c.Keeps original) ∧
      (∃ r, IsRecordOf t' root start names r) ∧
      ∀ r, IsRecordOf t' root start names r →
        ((Corpus.folderRecords t' root).stop = none → r ∈ (Corpus.folderRecords t' root).records) ∧
        ∀ d, r.normalize = .ok d → d.SameBuild c := by
  obtain ⟨origin, mem, original, read, rfl⟩ :=
    (Database.exists_record_of_load before options corpus row
      (List.mem_of_find?_eq_some added)).resolve_left fun old => Database.row?_eq_none fresh
        (List.mem_map.2 ⟨row, old, by simpa using List.find?_some added⟩)
  have ⟨normal, sources⟩ :=
    RawRecord.normalize_isNormal origin original (RawRecord.normalize_of_contract read)
  have storable := normal.isStorable
  have back := ContractRow.contract_ofContract before.cast storable.named storable.runs
  have stored : db.contract? id = .ok (some (original.asStored before.cast)) :=
    kept.trans (by rw [back]; rfl)
  cases written : writeFolder
    ((Path.ofText output).join (.ofText (original.asStored before.cast).id))
      (original.asStored before.cast) t with
  | mk result u =>
    cases result with
    | error f => cases (exportContract_error stored output t written).symm.trans exported
    | ok =>
      cases (exportContract_ok stored output t written).symm.trans exported
      have listed := (keepsListing_writeFolder _ _).after written listed
      have documents := holdsDocuments_writeFolder written
      rw [← below] at documents
      have runs := (normal.asStored before.cast).settings.runs
      have text : ∃ s, (original.asStored before.cast).constructorArgs = .ofText? s := ⟨_, rfl⟩
      refine ⟨original.asStored before.cast, back,
        ⟨origin, mem, original, read, normal.asStored_keeps _⟩,
        exists_isRecordOf runs text documents, fun r reading => ⟨fun whole => ?_,
        fun d again => ?_⟩⟩
      · exact reading.mem_folderRecords listed named there whole
      · obtain ⟨-, _, refused⟩ | normalized :=
          normalize_of_isRecordOf listed runs text documents (normal.asStored _) reading
        · cases refused.symm.trans again
        rw [normalized] at again
        have same :=
          RawRecord.ofInput_exported (normal.asStored before.cast) (sources (distinct origin mem))
        exact ((Yields.map (P := fun d => d.SameBuild (original.asStored before.cast))
          same).mapError _) d again

/-! ## The vault -/

theorem id_vault : Contract.vault.id = "6f1c275319aef19b13eac22015c2dc5f" := by
  have ascending : (["contract Vault {}", "contract Base {}"].map
      (contentDigest Md5.hexDigest)).Pairwise (· ≤ ·) := by decide +kernel
  simp only [Contract.vault, contentId, identityText_of_ascending _ _ _ ascending]
  decide +kernel

/-- The one library of the vault is in order. -/
theorem asStored_vault : Contract.vault.asStored .plain = .vault := by
  have libraries :
      RawRecord.vaultSettings.inOrder.libraries = RawRecord.vaultSettings.libraries := by
    refine OrderedMap.ext' ((List.mergeSort_singleton _).trans ?_)
    exact congrArg (fun m => [("src/Vault.sol", m)]) (OrderedMap.ext' (List.mergeSort_singleton _))
  exact congrArg (fun m =>
    { Contract.vault with settings := { RawRecord.vaultSettings with libraries := m } }) libraries

/-- A corpus of a folder that cannot be read and of the vault, twice. -/
def vaultCorpus : CorpusStream := ⟨[⟨.folder, "A", .null⟩, .vaultFolder, .vaultFolder], none⟩

theorem hasDistinctNames_vaultCorpus : ∀ r ∈ vaultCorpus.records, r.payload.HasDistinctNames := by
  have vault : RawRecord.vaultFolder.payload.HasDistinctNames := by
    refine .object (by decide) ?_
    simp only [List.forall_mem_cons, List.not_mem_nil, false_implies, implies_true, and_true]
    refine ⟨.object (by decide) ?_, .object (by decide) ?_⟩
    · simp only [RawRecord.vaultMetadata, List.forall_mem_cons, List.not_mem_nil, false_implies,
        implies_true, and_true]
      exact ⟨.text _, .text _, .text _, .text _, .text _, .text _, .text _⟩
    · simp only [List.forall_mem_cons, List.not_mem_nil, false_implies, implies_true, and_true]
      exact ⟨.text _, .text _⟩
  simp only [vaultCorpus, List.forall_mem_cons, List.not_mem_nil, false_implies, implies_true,
    and_true]
  exact ⟨.null, vault, vault⟩

/-- A record after one that cannot be read is stored once. -/
theorem load_twice {r : RawRecord} {c : Contract} (read : r.contract = .ok c) :
    (({} : Database).load { chunkSize := 1, ignoreErrors := true } ⟨[⟨.folder, "A", .null⟩, r,
      r], none⟩).2 = { contracts := [.ofContract .plain c] } := by
  have unreadable : (RawRecord.mk .folder "A" .null).contract = .error ⟨"A", .unreadable⟩ := rfl
  simp [Database.load, LoadState.takeAll, unreadable, read, LoadState.see, LoadState.leaveOut,
    LoadState.take, LoadState.flushFull, LoadState.flush, Database.store, Database.storeOne,
    Database.row?, ContractRow.ofContract]

/-- Loading that stores the records one by one and passes over what is malformed. -/
def oneByOne : LoadOptions := { chunkSize := 1, ignoreErrors := true }

theorem row?_vault : (({} : Database).load oneByOne vaultCorpus).2.row? Contract.vault.id =
    some (.ofContract .plain .vault) := by
  rw [vaultCorpus, oneByOne, load_twice RawRecord.contract_vaultFolder]
  simp [Database.row?, ContractRow.ofContract]

theorem isNormal_vault : Contract.vault.IsNormal :=
  (RawRecord.normalize_isNormal _ _ RawRecord.normalize_vaultFolder).1

theorem contract_ofContract_vault :
    (ContractRow.ofContract .plain .vault).contract = .ok .vault := by
  have back := ContractRow.contract_ofContract .plain isNormal_vault.isStorable.named
    isNormal_vault.settings.runs
  rwa [asStored_vault] at back

theorem contract?_vault :
    (({} : Database).load oneByOne vaultCorpus).2.contract? Contract.vault.id =
    .ok (some .vault) := by
  rw [Database.contract?, row?_vault]
  simp only [contract_ofContract_vault]
  rfl

/-- The folder that the vault is exported to. -/
theorem folder_vault : (Path.ofText "out").join (.ofText Contract.vault.id) =
    ⟨.relative, ["out", "6f1c275319aef19b13eac22015c2dc5f"]⟩ := by
  rw [id_vault]
  decide

theorem exists_of_isSome {Q : Tree → Prop} {step : Except Fault Unit × Tree}
    (done : step.1.toOption.isSome ∧ Q step.2) : ∃ t', step = (.ok (), t') ∧ Q t' := by
  obtain ⟨result, t'⟩ := step
  cases result with
  | error f => cases done.1
  | ok => exact ⟨t', rfl, done.2⟩

theorem writeFolder_vault : ∃ t',
    writeFolder ⟨.relative, ["out", "6f1c275319aef19b13eac22015c2dc5f"]⟩ .vault {} = (.ok (), t') ∧
      t'.directory? (.ofText "out") = some ["out"] ∧ t'.closed = [] :=
  exists_of_isSome (Q := fun t' => t'.directory? (.ofText "out") = some ["out"] ∧ t'.closed = [])
    (by decide +kernel)

theorem ofInput_vault : ofInput Contract.vault.metadataMembers (.ok Contract.vault.exportedInput) =
    .ok { Contract.vault with address := none, constructorArgs := .null } := by
  have given : RawRecord.standardInput Contract.vault.exportedInput
      { optimizerEnabled := true, optimizerRuns := 1000, evmVersion := some "paris" } =
        .ok ⟨Contract.vault.sources, RawRecord.vaultSettings, .standardJson⟩ := rfl
  have named : Metadata.primaryName (Contract.vault.sources.map Prod.snd) (some "Vault") =
      .ok "Vault" := rfl
  exact RawRecord.ofInput_eq rfl rfl given rfl named (show Text.IsShort 1000 by decide)

/-- The vault is exported to an empty tree and loaded again. -/
theorem reload_exported_vault :
    ∃ folder t' r d,
      exportContract (({} : Database).load oneByOne vaultCorpus).2 Contract.vault.id "out" {} =
        (.ok folder, t') ∧
      IsRecordOf t' "out" ["out"] [Contract.vault.id] r ∧
      r.normalize = .ok d ∧ d.SameBuild .vault := by
  have listed : ({} : Tree).IsWellFormed := ⟨List.nodup_nil, by simp⟩
  have below : ["out"] ++ [Contract.vault.id] =
      ((Path.ofText "out").join (.ofText Contract.vault.id)).location := by
    rw [folder_vault, id_vault]
    rfl
  obtain ⟨t', written, there, all_open⟩ := writeFolder_vault
  rw [← folder_vault] at written
  have exported := exportContract_ok contract?_vault "out" {} written
  have kept := contract?_vault.trans (congrArg (Except.map some) contract_ofContract_vault).symm
  obtain ⟨c, read, -, ⟨r, reading⟩, each⟩ :=
    reload_exported hasDistinctNames_vaultCorpus rfl row?_vault kept listed exported
      (by decide) there below
  cases read.symm.trans contract_ofContract_vault
  have documents := holdsDocuments_writeFolder written
  rw [← below] at documents
  have normalized := (normalize_of_isRecordOf ((keepsListing_writeFolder _ _).after written listed)
    isNormal_vault.settings.runs ⟨some "00ff", rfl⟩ documents isNormal_vault reading).resolve_left
      fun shut => shut.1 all_open
  rw [ofInput_vault] at normalized
  exact ⟨_, t', r, _, exported, reading, normalized, (each r reading).2 _ normalized⟩

end Export

end SelectorCatalog
