import SelectorCatalog.Database.Row
import SelectorCatalog.Proofs.Json.RoundTrip
import SelectorCatalog.Proofs.Steps
import SelectorCatalog.Proofs.Text.KeyOrder

/-!
# Contracts are read back from their rows

* `CompilerSettings.ofText_toText` : stored settings are read back with their libraries in order;
* `ContractRow.contract_ofContract` : the row of a contract is read back as the contract that
  `Contract.asStored` gives, if the contract has an id.

Both need a number of optimizer runs that has no more digits than are read.
-/

set_option autoImplicit false

namespace SelectorCatalog

/-! ## Ordered maps -/

namespace OrderedMap

variable {α β : Type}

/-- The map with its entries in ascending order of names. -/
def inOrder (m : OrderedMap α) : OrderedMap α where
  entries := m.sorted
  nodup := ((KeyOrder.sort_perm Prod.fst m.entries).map Prod.fst).nodup_iff.2 m.nodup

/-- The map with another value under every name. -/
def mapValues (f : α → β) (m : OrderedMap α) : OrderedMap β where
  entries := m.entries.map fun e => (e.1, f e.2)
  nodup := by simpa [Assoc.names, Function.comp_def] using m.nodup

end OrderedMap

/-! ## Settings -/

namespace Value

theorem sortEach_eq_map : ∀ members : List (String × Value),
    sortEach members = members.map fun m => (m.1, sortMembers m.2)
  | [] => rfl
  | (k, v) :: rest => by rw [sortEach, sortEach_eq_map rest, List.map_cons]

theorem sortItems_texts : ∀ items : List String, sortItems (items.map text) = items.map text
  | [] => rfl
  | s :: rest => by rw [List.map_cons, sortItems, sortMembers, sortItems_texts rest] <;> simp

theorem sortMembers_ofTexts (m : OrderedMap String) :
    sortMembers (ofTexts m) = ofTexts m.inOrder := by
  have same : sortEach (m.entries.map fun e => (e.1, text e.2)) =
      m.entries.map fun e => (e.1, text e.2) := by
    rw [sortEach_eq_map, List.map_map]
    exact List.map_congr_left fun e _ => by simp [sortMembers]
  rw [ofTexts, sortMembers, same, ofTexts]
  exact congrArg object
    (KeyOrder.map_sort (fun e : String × String => (e.1, text e.2)) m.entries).symm

theorem sortMembers_ofLibraries (m : OrderedMap (OrderedMap String)) :
    sortMembers (ofLibraries m) = ofLibraries (m.mapValues OrderedMap.inOrder).inOrder := by
  have same : sortEach (m.entries.map fun e => (e.1, ofTexts e.2)) =
      (m.mapValues OrderedMap.inOrder).entries.map fun e => (e.1, ofTexts e.2) := by
    rw [sortEach_eq_map, OrderedMap.mapValues, List.map_map, List.map_map]
    exact List.map_congr_left fun e _ => by simp [sortMembers_ofTexts]
  rw [ofLibraries, sortMembers, same, ofLibraries]
  exact congrArg object
    (KeyOrder.map_sort (fun e : String × OrderedMap String => (e.1, ofTexts e.2))
    (m.mapValues OrderedMap.inOrder).entries).symm

theorem toTexts_ofTexts (m : OrderedMap String) : (ofTexts m).toTexts = .ok m := by
  rw [ofTexts, toTexts, List.mapM_map, mapM_ok (g := id), List.map_id]
  · exact congrArg Except.ok m.ofList_entries
  · exact fun _ _ => rfl

theorem toLibraries_ofLibraries (m : OrderedMap (OrderedMap String)) :
    (ofLibraries m).toLibraries = .ok m := by
  rw [ofLibraries, toLibraries, List.mapM_map, mapM_ok (g := id), List.map_id]
  · exact congrArg Except.ok m.ofList_entries
  · intro e _
    simp only [Function.comp_apply, toTexts_ofTexts]
    rfl

theorem toTextList_texts (items : List String) :
    (list (items.map text)).toTextList = .ok items := by
  rw [toTextList, List.mapM_map, mapM_ok (g := id), List.map_id]
  exact fun _ _ => rfl

theorem plain_ofTexts (m : OrderedMap String) : Json.Plain (ofTexts m) := by
  refine .object ?_ ?_
  · simpa [Assoc.names, Function.comp_def] using m.nodup
  · intro e he
    obtain ⟨_, _, rfl⟩ := List.mem_map.1 he
    exact .text _

theorem plain_ofLibraries (m : OrderedMap (OrderedMap String)) : Json.Plain (ofLibraries m) := by
  refine .object ?_ ?_
  · simpa [Assoc.names, Function.comp_def] using m.nodup
  · intro e he
    obtain ⟨_, _, rfl⟩ := List.mem_map.1 he
    exact plain_ofTexts _

theorem plain_texts (items : List String) : Json.Plain (list (items.map text)) := by
  refine .list ?_
  intro v hv
  obtain ⟨_, _, rfl⟩ := List.mem_map.1 hv
  exact .text _

theorem plain_ofText? (s : Option String) : Json.Plain (ofText? s) := by
  cases s
  · exact .null
  · exact .text _

end Value

namespace CompilerSettings

/-- The settings with the libraries of every source unit, and the source units, in ascending
order. -/
def inOrder (s : CompilerSettings) : CompilerSettings :=
  { s with libraries := (s.libraries.mapValues OrderedMap.inOrder).inOrder }

/-- The number of optimizer runs has no more digits than are read and written. -/
def HasShortRuns (s : CompilerSettings) : Prop := Text.IsShort s.optimizerRuns

instance (s : CompilerSettings) : Decidable s.HasShortRuns :=
  inferInstanceAs (Decidable (Text.IsShort s.optimizerRuns))

/-- The members of the stored document in the order in which they are written. -/
def storedMembers (s : CompilerSettings) : List (String × Value) :=
  [("evm_version", .ofText? s.evmVersion), ("libraries", .ofLibraries s.inOrder.libraries),
    ("optimizer_enabled", .bool s.optimizerEnabled), ("optimizer_runs", .int s.optimizerRuns),
    ("remappings", .list (s.remappings.map .text)), ("via_ir", .bool s.viaIr)]

theorem sortMembers_stored (s : CompilerSettings) :
    s.stored.toValue.sortMembers = .object s.storedMembers := by
  have version : Value.sortMembers (.ofText? s.evmVersion) = .ofText? s.evmVersion := by
    cases s.evmVersion <;> rfl
  have sorted : Value.sortEach [("optimizer_enabled", s.stored.optimizerEnabled),
      ("optimizer_runs", s.stored.optimizerRuns), ("evm_version", s.stored.evmVersion),
      ("remappings", s.stored.remappings), ("libraries", s.stored.libraries),
      ("via_ir", s.stored.viaIr)] =
      [("optimizer_enabled", .bool s.optimizerEnabled), ("optimizer_runs", .int s.optimizerRuns),
        ("evm_version", .ofText? s.evmVersion), ("remappings", .list (s.remappings.map .text)),
        ("libraries", .ofLibraries s.inOrder.libraries), ("via_ir", .bool s.viaIr)] := by
    simp [Value.sortEach_eq_map, stored, version, Value.sortMembers, Value.sortItems_texts,
      Value.sortMembers_ofLibraries, inOrder]
  rw [StoredSettings.toValue, Value.sortMembers, sorted]
  refine congrArg Value.object (KeyOrder.sort_eq_of_perm Prod.fst ?_ ?_)
  · exact (@List.perm_middle _ _ [_, _] _).trans (.cons _ (@List.perm_middle _ _ [_, _, _] _))
  · rw [← List.pairwise_map]
    show ["evm_version", "libraries", "optimizer_enabled", "optimizer_runs", "remappings",
      "via_ir"].Pairwise (· < ·)
    decide

theorem toText_eq_write (s : CompilerSettings) :
    s.toText = Json.write (.object s.storedMembers) := by
  rw [toText, StoredSettings.toText, sortMembers_stored]

/-- **Settings are written exactly if their number of optimizer runs is short enough.** -/
theorem dump_eq (s : CompilerSettings) :
    s.dump = if s.HasShortRuns then .ok s.toText else .error .tooLongToWrite := by
  have version : Json.isWritable (.ofText? s.evmVersion) = true := by cases s.evmVersion <;> rfl
  have remappings : Json.isWritable (.list (s.remappings.map .text)) = true := by simp
  have libraries : Json.isWritable (.ofLibraries s.libraries) = true := by
    simp [Value.ofLibraries, Value.ofTexts]
  have each : Json.isWritable s.stored.toValue = decide s.HasShortRuns := by
    simp only [StoredSettings.toValue, stored, Json.isWritable_object, List.all_cons, List.all_nil,
      Json.isWritable_bool, Json.isWritable_int, version, remappings, libraries, Bool.and_true,
      Bool.true_and]
    rfl
  simp only [dump, each, decide_eq_true_eq]

theorem plain_storedMembers {s : CompilerSettings} (h : s.HasShortRuns) :
    Json.Plain (.object s.storedMembers) := by
  refine .object ?_ ?_
  · show ["evm_version", "libraries", "optimizer_enabled", "optimizer_runs", "remappings",
      "via_ir"].Nodup
    decide
  · simp only [storedMembers, List.forall_mem_cons, List.not_mem_nil, false_implies, implies_true,
      and_true]
    exact ⟨Value.plain_ofText? _, Value.plain_ofLibraries _, .bool _, .int h, Value.plain_texts _,
      .bool _⟩

theorem ofValue_storedMembers (s : CompilerSettings) :
    StoredSettings.ofValue (.object s.storedMembers) = .ok s.inOrder.stored := rfl

theorem settings_stored (s : CompilerSettings) : s.stored.settings = .ok s := by
  unfold StoredSettings.settings stored
  simp only [Value.toTextList_texts, Value.toLibraries_ofLibraries, bind, Except.bind]
  cases h : s.evmVersion <;> simp only [Value.ofText?] <;> exact congrArg Except.ok (by rw [← h])

/-- **Stored settings are read back** with their libraries in order. -/
theorem ofText_toText {s : CompilerSettings} (h : s.HasShortRuns) :
    ofText s.toText = .ok s.inOrder := by
  have text : Json.parse s.toText = .ok (.object s.storedMembers) := by
    rw [toText_eq_write]
    exact Json.parse_write (plain_storedMembers h)
  have members : StoredSettings.ofText s.toText = .ok s.inOrder.stored := by
    rw [StoredSettings.ofText, text]
    exact ofValue_storedMembers s
  rw [ofText, members]
  exact settings_stored s.inOrder

end CompilerSettings

/-! ## Ids -/

/-- **A contract has an id exactly if it has a name and a version, and settings that can be
written.** -/
theorem Contract.identify_eq_ok {c : Contract} {id : String} :
    c.identify = .ok id ↔ ∃ name version, c.name = some name ∧ c.compilerVersion = some version ∧
      c.settings.HasShortRuns ∧
      contentId Md5.hexDigest (c.sources.map Prod.snd) name version c.settings = id := by
  rw [identify, CompilerSettings.dump_eq]
  constructor
  · intro identified
    obtain ⟨text, written, given⟩ := bind_eq_ok.1 identified
    split at written
    · rename_i short
      split at given
      · rename_i name version named versioned
        exact ⟨name, version, named, versioned, short, Except.ok.inj given⟩
      · cases given
    · cases written
  · rintro ⟨name, version, named, versioned, short, rfl⟩
    rw [if_pos short, named, versioned]
    rfl

/-! ## Rows -/

/-- The contract as its row keeps it: libraries in order, and constructor arguments as a text. -/
def Contract.asStored (cast : TextCast) (c : Contract) : Contract :=
  { c with
    settings := c.settings.inOrder
    constructorArgs := .ofText? (c.constructorArgs.column cast) }

namespace ContractRow

theorem plain_sourcesDocument (sources : List (String × String)) :
    Json.Plain (sourcesDocument sources) := by
  refine .list ?_
  intro v hv
  obtain ⟨s, _, rfl⟩ := List.mem_map.1 hv
  refine .list ?_
  simp only [List.forall_mem_cons, List.not_mem_nil, false_implies, implies_true, and_true]
  exact ⟨.text _, .text _⟩

/-- **The row of a contract is read back.** -/
theorem contract_ofContract (cast : TextCast) {c : Contract} (named : c.id ≠ "")
    (runs : c.settings.HasShortRuns) : (ofContract cast c).contract = .ok (c.asStored cast) := by
  have format : SourceFormat.ofValue (.ofText? (some c.sourceFormat.label)) =
      .ok c.sourceFormat := by
    cases c.sourceFormat <;> rfl
  have document : documentOf (some (Json.write (sourcesDocument c.sources))) =
      .ok (sourcesDocument c.sources) := Json.parse_write (plain_sourcesDocument c.sources)
  have parts : (sourcesDocument c.sources).parts =
      .ok (c.sources.map fun s => Value.list [.text s.1, .text s.2]) := rfl
  have sources : (c.sources.map fun s => Value.list [.text s.1, .text s.2]).mapM sourceOf =
      .ok c.sources := by
    rw [List.mapM_map, mapM_ok (g := fun s => s), List.map_id']
    exact fun _ _ => rfl
  have settings : settingsOf (some c.settings.toText) = .ok c.settings.inOrder :=
    CompilerSettings.ofText_toText runs
  have named : (c.asStored cast).withId = .ok (c.asStored cast) := by
    rw [Contract.withId, if_neg]
    simpa [Contract.asStored] using named
  unfold contract
  simp only [ofContract, format, document, settings, parts, sources, bind, Except.bind]
  exact named

end ContractRow

end SelectorCatalog
