import SelectorCatalog.Export.Write
import SelectorCatalog.Proofs.Corpus.Layouts
import SelectorCatalog.Proofs.Database.Kept
import SelectorCatalog.Proofs.Json.Lines

/-!
# What an exported folder is read as

The metadata and the compiler input of an exported folder are written by two rules of their own: the
one spells out every field, with placeholders for what is missing, and the other leaves out what is
empty or off. Reading a folder undoes both (`RawRecord.ofInput_exported`), since what is stored is
in normal form: an integer is read back from its digits (`Text.readInteger_toString`), and the
machine version, the compiler version and the address are what their rules leave as they are.
-/

set_option autoImplicit false

namespace SelectorCatalog

/-! ## Coercions of what is written -/

namespace Metadata

theorem runs_int {n : Int} (short : Text.IsShort n) : runs (.int n) = .ok n := by
  have filled : (toString n).isEmpty = false := by simpa using Value.toString_int_ne_empty n
  have display : Value.display (.int n) = toString n := by
    rw [Value.display, Value.quoted]
    simp
  unfold runs
  dsimp only
  rw [display, Text.trim_toString, filled, integerOf, Text.readInteger_toString short]
  rfl

theorem flag_int (b : Bool) : flag (.int (if b then 1 else 0)) = b := by
  cases b <;> rfl

theorem isGiven_of_machine {v : Value} {s : String} (h : machine v = some s) :
    v.isGiven = true := by
  unfold machine at h
  rw [Option.ite_none_right_eq_some] at h
  exact h.1

/-- A machine version is exported by its name or as the default one. -/
theorem machine_exported {version : Option String}
    (normal : ∀ v, version = some v → machine (.text v) = some v) :
    machine ((Value.ofText? version).orElse (.text "Default")) = version := by
  cases version with
  | none => decide +kernel
  | some v =>
    have own := normal v rfl
    have given := isGiven_of_machine own
    rw [Value.ofText?, Value.orElse, if_pos given, own]

/-- An address is exported as it is or as an empty text. -/
theorem address?_exported {address : Option String}
    (normal : ∀ a, address = some a → address? (.text a) = some a) :
    address? (((Value.ofText? address).orElse (.text "")).orElse .null) = address := by
  cases address with
  | none => rfl
  | some a =>
    have own := normal a rfl
    have given : Value.isGiven (.text a) = true := by
      unfold address? at own
      rw [Option.ite_none_right_eq_some] at own
      exact own.1
    simp only [Value.ofText?, Value.orElse, given, if_true, own]

end Metadata

/-! ## Settings -/

theorem Assoc.get?_append {α : Type} (name : String) (as bs : List (String × α)) :
    get? name (as ++ bs) = (get? name as).or (get? name bs) := by
  induction as with
  | nil => rfl
  | cons a rest ih =>
    rw [List.cons_append, get?, get?]
    split
    · rfl
    · exact ih

namespace CompilerSettings

variable (s : CompilerSettings)

/-- What is found of settings in the compiler's document format: the members that are not left
out. -/
theorem get?_standardMembers (name : String) :
    Assoc.get? name s.standardMembers =
      if name = "optimizer" then
        some (.object [("enabled", .bool s.optimizerEnabled), ("runs", .int s.optimizerRuns)])
      else if name = "evmVersion" then
        if (s.evmVersion.getD "").isEmpty then none else some (.text (s.evmVersion.getD ""))
      else if name = "remappings" then
        if s.remappings.isEmpty then none else some (.list (s.remappings.map .text))
      else if name = "libraries" then
        if s.libraries.isEmpty then none else some (.ofLibraries s.libraries)
      else if name = "viaIR" then
        if s.viaIr then some (.bool true) else none
      else none := by
  have optional (c : Prop) [Decidable c] (k : String) (v : Value) :
      Assoc.get? name (if c then [] else [(k, v)]) = if k = name then if c then none
        else some v else none := by
    split <;> simp [Assoc.get?]
  have viaIr : Assoc.get? name (if s.viaIr then [("viaIR", .bool true)] else []) =
      if "viaIR" = name then if s.viaIr then some (Value.bool true) else none else none := by
    split <;> simp [Assoc.get?]
  unfold standardMembers
  simp only [Assoc.get?_append, optional, viaIr, Assoc.get?]
  grind

end CompilerSettings

namespace RawRecord

open RecordFlaw (lift)

/-- **Exported settings are read back as they were**, if the metadata name no other machine
version. -/
theorem standardSettings_exported {s fallback : CompilerSettings} (h : s.IsNormal)
    (machine : s.evmVersion = none → fallback.evmVersion = none) :
    standardSettings (.object s.standardMembers) fallback = .ok s := by
  have optimizer : Assoc.get? "optimizer" s.standardMembers =
      some (.object [("enabled", .bool s.optimizerEnabled), ("runs", .int s.optimizerRuns)]) := by
    rw [s.get?_standardMembers]
    rfl
  have version : (Metadata.machine ((Assoc.get? "evmVersion" s.standardMembers).getD .null)).orElse
      (fun _ => fallback.evmVersion) = s.evmVersion := by
    rw [s.get?_standardMembers]
    cases own : s.evmVersion with
    | none => exact machine own
    | some v =>
      have again := h.machine v own
      have filled : v.isEmpty = false := by
        simpa [Value.isGiven] using Metadata.isGiven_of_machine again
      show (Metadata.machine ((if v.isEmpty then none else some (Value.text v)).getD .null)).orElse
          _ = some v
      rw [filled]
      exact congrArg (fun m : Option String => m.orElse fun _ => fallback.evmVersion) again
  have remappings :
      (((Assoc.get? "remappings" s.standardMembers).getD .null).orElse (.list [])).parts =
      .ok (s.remappings.map .text) := by
    rw [s.get?_standardMembers]
    cases s.remappings <;> rfl
  have libraries :
      (((Assoc.get? "libraries" s.standardMembers).getD .null).orElse (.object [])).members =
      .ok (s.libraries.entries.map fun e => (e.1, .ofTexts e.2)) := by
    rw [s.get?_standardMembers]
    obtain ⟨entries, distinct⟩ := s.libraries
    cases entries <;> rfl
  have units : (s.libraries.entries.map fun e => (e.1, Value.ofTexts e.2)).mapM (fun u => do
      let names ← u.2.members
      return (u.1, OrderedMap.ofList (names.map fun n : String × Value => (n.1, n.2.display)))) =
      .ok s.libraries.entries := by
    rw [List.mapM_map, mapM_ok (g := id), List.map_id]
    intro e _
    have texts : (e.2.entries.map fun t => (t.1, Value.text t.2)).map
        (fun n => (n.1, n.2.display)) = e.2.entries := by simp [Function.comp_def]
    show Except.ok (e.1, OrderedMap.ofList ((e.2.entries.map fun t => (t.1, Value.text t.2)).map
      fun n => (n.1, n.2.display))) = _
    rw [texts, OrderedMap.ofList_entries]
    rfl
  have viaIr : Metadata.flag ((Assoc.get? "viaIR" s.standardMembers).getD (.bool false)) =
      s.viaIr := by
    rw [s.get?_standardMembers]
    cases s.viaIr <;> rfl
  have shown : (s.remappings.map Value.text).map Value.display = s.remappings := by
    simp [Function.comp_def]
  have enabled : (Value.object [("enabled", .bool s.optimizerEnabled),
      ("runs", .int s.optimizerRuns)]).fieldD
      "enabled" (.bool fallback.optimizerEnabled) = .ok (.bool s.optimizerEnabled) := rfl
  have runs : (Value.object [("enabled", .bool s.optimizerEnabled),
      ("runs", .int s.optimizerRuns)]).fieldD
      "runs" (.int fallback.optimizerRuns) = .ok (.int s.optimizerRuns) := rfl
  have given : (Value.object [("enabled", .bool s.optimizerEnabled),
      ("runs", .int s.optimizerRuns)]).orElse
      (.object []) = .object [("enabled", .bool s.optimizerEnabled),
        ("runs", .int s.optimizerRuns)] := rfl
  have off : (Value.object s.standardMembers).fieldD "viaIR" (.bool false) =
      .ok ((Assoc.get? "viaIR" s.standardMembers).getD (.bool false)) := rfl
  unfold standardSettings
  simp only [Value.field_object, Value.ofMember, ok_bind, optimizer, Option.getD_some, given,
    enabled, runs, Metadata.runs_int h.runs, remappings, libraries, units, off, viaIr, version,
    shown, OrderedMap.ofList_entries]
  rfl

end RawRecord

/-! ## The two documents -/

namespace Contract

/-- The fields of the exported metadata. -/
def metadataMembers (c : Contract) : List (String × Value) :=
  match c.metadata with
  | .object members => members
  | _ => []

theorem metadata_eq (c : Contract) : c.metadata = .object c.metadataMembers := rfl

/-- Contracts that are compiled in one way and belong to one address. -/
structure SameBuild (c d : Contract) : Prop where
  sources : c.sources = d.sources
  settings : c.settings = d.settings
  compilerVersion : c.compilerVersion = d.compilerVersion
  address : c.address = d.address
  constructorArgs : c.constructorArgs = d.constructorArgs

theorem entries_sourceMap {c : Contract} (distinct : (Assoc.names c.sources).Nodup) :
    c.sourceMap.entries = c.sources := by
  rw [sourceMap, OrderedMap.ofList, OrderedMap.entries_foldl_insert]
  · rfl
  · exact distinct

end Contract

namespace RawRecord

open RecordFlaw (lift)

variable {c : Contract}

theorem metadataSettings_exported (h : c.IsNormal) :
    metadataSettings (.object c.metadataMembers) (.bool false) = .ok {
      optimizerEnabled := c.settings.optimizerEnabled
      optimizerRuns := c.settings.optimizerRuns
      evmVersion := c.settings.evmVersion } := by
  have used : (Value.object c.metadataMembers).fieldD "OptimizationUsed" (.bool false) =
      .ok (.int (if c.settings.optimizerEnabled then 1 else 0)) := rfl
  have runs : (Value.object c.metadataMembers).field "Runs" = .ok (.int c.settings.optimizerRuns) :=
    rfl
  have version : (Value.object c.metadataMembers).field "EVMVersion" =
      .ok ((Value.ofText? c.settings.evmVersion).orElse (.text "Default")) := rfl
  simp only [metadataSettings, used, runs, version, ok_bind, Metadata.runs_int h.settings.runs,
    Metadata.flag_int, Metadata.machine_exported h.settings.machine]
  rfl

theorem sourceEntries_exported (c : Contract) :
    Yields (sourceEntries c.standardSources) fun found => found = c.sourceMap.entries := by
  have members : lift c.standardSources.members =
      .ok (c.sourceMap.entries.map fun e => (e.1, .object [("content", .text e.2)])) := rfl
  unfold sourceEntries
  rw [members, ok_bind]
  dsimp only
  split
  · exact .throw _ _
  · refine .pure ?_
    rw [List.filterMap_map]
    exact List.filterMap_some

theorem standardInput_exported (h : c.IsNormal) {fallback : CompilerSettings}
    (machine : c.settings.evmVersion = none → fallback.evmVersion = none) :
    Yields (standardInput c.exportedInput fallback) fun found =>
      found.sources = c.sourceMap.entries ∧ found.settings = c.settings := by
  have language : ¬(Text.lower (Value.text "Solidity").display != "solidity") = true := by
    decide +kernel
  have listed : (lift (c.exportedInput.field "sources") : Except RecordFlaw Value) =
      .ok c.standardSources := rfl
  have chosen : c.exportedInput.field "settings" = .ok (.object c.settings.standardMembers) := rfl
  have given : (Value.object c.settings.standardMembers).orElse (.object []) =
      .object c.settings.standardMembers := rfl
  have sources : c.standardSources.orElse (.object []) = c.standardSources := by
    unfold Contract.standardSources
    cases c.sourceMap.entries <;> rfl
  rw [Contract.exportedInput, Contract.inputDocument] at listed chosen ⊢
  unfold standardInput
  refine .bind (P := fun v => v = .text "Solidity") (.ok rfl) ?_
  rintro _ rfl
  rw [if_neg language, listed, ok_bind, sources, chosen, ok_bind, given,
    standardSettings_exported h.settings machine]
  exact .bind (sourceEntries_exported c) fun found same => .pure ⟨same, rfl⟩

/-- A step that gives a contract its id changes nothing else of it. -/
theorem finish_sameBuild (c : Contract) : Yields (finish c) fun d => d.SameBuild c := by
  refine Yields.mapError ?_ _
  unfold Contract.withId
  split
  · exact .map fun _ _ => ⟨rfl, rfl, rfl, rfl, rfl⟩
  · exact .ok ⟨rfl, rfl, rfl, rfl, rfl⟩

/-- **The exported compiler input gives the contract that was exported**, address and constructor
arguments apart. -/
theorem ofInput_exported (h : c.IsNormal) (distinct : (Assoc.names c.sources).Nodup) :
    Yields (ofInput c.metadataMembers (.ok c.exportedInput)) fun d =>
      (completed c.address c.constructorArgs d).SameBuild c := by
  obtain ⟨version, named, again⟩ := h.version
  have known : Metadata.version ((Assoc.get? "CompilerVersion" c.metadataMembers).getD .null) =
      .ok version := by
    show Metadata.version (.ofText? c.compilerVersion) = _
    rw [named]
    exact again
  have settings :
      (lift (metadataSettings (.object c.metadataMembers) (.bool false)) : Except RecordFlaw _) =
      .ok { optimizerEnabled := c.settings.optimizerEnabled
            optimizerRuns := c.settings.optimizerRuns
            evmVersion := c.settings.evmVersion } := by
    rw [metadataSettings_exported h]
    rfl
  unfold ofInput
  simp only [known, settings, ok_bind]
  refine .bind (standardInput_exported h id) fun found same => ?_
  refine .skip fun declared => .skip fun name => ?_
  intro d finished
  have kept := finish_sameBuild (found.contract name version) d finished
  refine ⟨kept.sources.trans (same.1.trans (Contract.entries_sourceMap distinct)),
    kept.settings.trans same.2, kept.compilerVersion.trans named.symm, rfl, rfl⟩

theorem folderAddress_exported (h : c.IsNormal) : folderAddress c.metadataMembers = c.address :=
  Metadata.address?_exported h.address

theorem folderArguments_exported (h : c.IsNormal) :
    folderArguments c.metadataMembers = c.constructorArgs := by
  show (c.constructorArgs.orElse (.text "")).orElse .null = c.constructorArgs
  have normal := h.constructorArgs
  by_cases given : c.constructorArgs.isGiven = true
  · simp only [Value.orElse, given, if_true]
  · rw [Value.orElse, if_neg given] at normal
    rw [← normal]
    rfl

/-- **A folder with the two exported documents is read as the exported compiler input**, whatever
other files are in it. -/
theorem normalizeFolder_exported (h : c.IsNormal) {payload : Value} {files : List (String × Value)}
    (described : payload.field "metadata" = .ok c.metadata)
    (listed : payload.field "files" = .ok (.object files))
    (there : Assoc.get? "contract.json" files = some (.text (Json.writeLines c.exportedInput)))
    (read : Json.parse (Json.writeLines c.exportedInput) = .ok c.exportedInput) :
    normalizeFolder payload = (ofInput c.metadataMembers (.ok c.exportedInput)).map
      (completed c.address c.constructorArgs) := by
  rw [normalizeFolder_eq (described.trans (by rw [c.metadata_eq])) listed there, read,
    folderAddress_exported h, folderArguments_exported h]
  rfl

end RawRecord

/-! ## Texts of the two documents -/

namespace Contract

variable {c : Contract}

/-- The members that are not left out, among all of them. -/
theorem standardMembers_sublist (s : CompilerSettings) :
    s.standardMembers.Sublist
      [("optimizer", .object [("enabled", .bool s.optimizerEnabled),
        ("runs", .int s.optimizerRuns)]),
        ("evmVersion", .text (s.evmVersion.getD "")),
        ("remappings", .list (s.remappings.map .text)),
        ("libraries", .ofLibraries s.libraries), ("viaIR", .bool true)] := by
  have optional (c : Prop) [Decidable c] (m : String × Value) :
      (if c then [] else [m]).Sublist [m] := by
    split <;> simp
  have given (c : Prop) [Decidable c] (m : String × Value) :
      (if c then [m] else []).Sublist [m] := by
    split <;> simp
  exact ((((List.Sublist.refl [_]).append (optional _ _)).append (optional _ _)).append
    (optional _ _)).append (given _ _)

theorem plain_standardMembers {s : CompilerSettings} (runs : s.HasShortRuns) :
    Json.Plain (.object s.standardMembers) := by
  have few := standardMembers_sublist s
  refine .object ((few.map Prod.fst).nodup ?_) fun m mem => ?_
  · show ["optimizer", "evmVersion", "remappings", "libraries", "viaIR"].Nodup
    decide
  · refine (?_ : ∀ m ∈ _, Json.Plain m.2) m (few.mem mem)
    simp only [List.forall_mem_cons, List.not_mem_nil, false_implies, implies_true, and_true]
    refine ⟨.object ?_ ?_, .text _, Value.plain_texts _, Value.plain_ofLibraries _, .bool _⟩
    · simp [Assoc.names]
    · simp only [List.forall_mem_cons, List.not_mem_nil, false_implies, implies_true, and_true]
      exact ⟨.bool _, .int runs⟩

theorem plain_exportedInput (runs : c.settings.HasShortRuns) : Json.Plain c.exportedInput := by
  refine .object (by simp [Assoc.names]) ?_
  simp only [List.forall_mem_cons, List.not_mem_nil, false_implies, implies_true, and_true]
  refine ⟨.text _, .object ?_ ?_, plain_standardMembers runs⟩
  · simpa [Assoc.names, Function.comp_def] using c.sourceMap.nodup
  · intro m mem
    obtain ⟨source, -, rfl⟩ := List.mem_map.1 mem
    refine .object (by simp [Assoc.names]) ?_
    rw [List.forall_mem_singleton]
    exact .text _

theorem plain_metadata (runs : c.settings.HasShortRuns)
    (text : ∃ s, c.constructorArgs = .ofText? s) :
    Json.Plain c.metadata := by
  have orElse {v : Value} (h : Json.Plain v) (s : String) : Json.Plain (v.orElse (.text s)) := by
    unfold Value.orElse
    split
    · exact h
    · exact .text s
  have small (b : Bool) : Text.IsShort (if b then 1 else 0) := by
    revert b
    decide
  obtain ⟨args, same⟩ := text
  refine .object ?_ ?_
  · simp [Assoc.names]
  · simp only [List.forall_mem_cons, List.not_mem_nil, false_implies, implies_true, and_true]
    refine ⟨Value.plain_ofText? _, Value.plain_ofText? _, .int (small _), .int runs,
      orElse (Value.plain_ofText? _) _, orElse (Value.plain_ofText? _) _,
      orElse ?_ _, .text _, .text _⟩
    exact same ▸ Value.plain_ofText? args

end Contract

end SelectorCatalog
