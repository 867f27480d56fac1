import Mathlib.Logic.Function.Basic
import SelectorCatalog.CommandLine.Run
import SelectorCatalog.Proofs.Steps

/-!
# Each setting is that of the highest layer that gives it

A run puts layers over its standard settings one after the other: a settings file, the environment
and the options of the command line. `RunSettings.givenIn` is what entries give to a setting, and
`RunSettings.valueAfter` the value that the setting has in one step, whatever the layers. One entry
leads from settings to those with this value (`RunSettings.isAfter_setNamed`), and so does every
series of layers (`RunSettings.isAfter_override_all`).

Types of settings need not be known for this: it does to convert each value to the type of the one
that it replaces (`RunSettings.overrideLoosely`), since that type never changes
(`RunSettings.value_override_all`).
-/

set_option autoImplicit false

namespace SelectorCatalog

/-! ## Types of settings -/

/-- The types of setting values. -/
inductive SettingType where
  | text
  | flag
  | whole
  | number
  deriving DecidableEq

namespace SettingType

/-- A value converted to a type. -/
def convert : SettingType → Datum → Except Fault Datum
  | text, d => d.toText.map .text
  | flag, d => .ok (.bool d.toFlag)
  | whole, d => d.toInteger.map .int
  | number, d => d.toDouble.map .double

/-- The type that a value shows; what is null is a text that nothing has given. -/
def of? : Datum → Option SettingType
  | .null | .text _ => some text
  | .bool _ => some flag
  | .int _ => some whole
  | .double _ => some number
  | _ => none

/-- A value converted to the type of another one. -/
def convertLike (current d : Datum) : Except Fault Datum :=
  match of? current with
  | some t => t.convert d
  | none => .error .wrongType

end SettingType

namespace Setting

/-- The type of a setting. -/
def type : Setting → SettingType
  | databasePath | binaryDirectory => .text
  | loadChunk | indexChunk | workers | crashRetries | timeoutRetries => .whole
  | budget => .number

/-- The name of the variable of a setting. -/
def variableName? : Setting → Option String
  | databasePath => some "DUCKDB_PATH"
  | binaryDirectory => some "SOLCX_BINARY_PATH"
  | workers => some "INDEXER_WORKERS"
  | budget => some "INDEXER_COMPILE_TIMEOUT"
  | _ => none

theorem label_injective : Function.Injective label := fun x y same =>
  Option.some.inj (by rw [← ofLabel?_label x, same, ofLabel?_label])

theorem label_of_ofLabel? {name : String} {x : Setting} (h : ofLabel? name = some x) :
    x.label = name := by
  simpa using List.find?_some h

end Setting

/-- A value other than null. -/
def Datum.nonNull? : Datum → Option Datum
  | null => none
  | d => some d

namespace RunSettings

/-- The value of a setting. -/
def value (s : RunSettings) : Setting → Datum
  | .databasePath => (s.databasePath.map .text).getD .null
  | .binaryDirectory => (s.binaryDirectory.map .text).getD .null
  | .loadChunk => .int s.loadChunk
  | .indexChunk => .int s.indexChunk
  | .workers => .int s.workers
  | .budget => .double s.budget
  | .crashRetries => .int s.crashRetries
  | .timeoutRetries => .int s.timeoutRetries

theorem of?_value (s : RunSettings) (x : Setting) : SettingType.of? (s.value x) = some x.type := by
  cases x with
  | databasePath => unfold value; cases s.databasePath <;> rfl
  | binaryDirectory => unfold value; cases s.binaryDirectory <;> rfl
  | _ => rfl

/-- Setting a value converts it to the type of the setting and leaves the others. -/
theorem value_set (s : RunSettings) (x : Setting) (d : Datum) :
    (s.set x d).map value = (x.type.convert d).map (Function.update s.value x) := by
  -- the conversion fails or gives what is set
  have through {α : Type} (read : Except Fault α) (f : α → RunSettings) (shown : α → Datum)
      (updated : ∀ a, (f a).value = Function.update s.value x (shown a)) :
      (read.map f).map value = (read.map shown).map (Function.update s.value x) := by
    cases read with
    | error e => rfl
    | ok a => exact congrArg Except.ok (updated a)
  have updated {t : RunSettings} {v : Datum} (there : t.value x = v)
      (others : ∀ y, y ≠ x → t.value y = s.value y) : t.value = Function.update s.value x v :=
    Function.eq_update_iff.2 ⟨there, others⟩
  cases x with
  | databasePath | binaryDirectory =>
    exact through d.toText _ _ fun p => updated rfl fun y => by cases y <;> simp [value]
  | budget => exact through d.toDouble _ _ fun b => updated rfl fun y => by cases y <;> simp [value]
  | _ => exact through d.toInteger _ _ fun n => updated rfl fun y => by cases y <;> simp [value]

/-! ## Layers -/

/-- What a layer gives to a setting: the last value other than null under its name. -/
def givenIn : List (String × Datum) → Setting → Option Datum
  | [], _ => none
  | (name, d) :: rest, x => (givenIn rest x).or (if name = x.label then d.nonNull? else none)

theorem givenIn_singleton (y : Setting) (d : Datum) (x : Setting) :
    givenIn [(y.label, d)] x = if y = x then d.nonNull? else none := by
  simp [givenIn, Setting.label_injective.eq_iff]

theorem givenIn_append (lower higher : List (String × Datum)) (x : Setting) :
    givenIn (lower ++ higher) x = (givenIn higher x).or (givenIn lower x) := by
  induction lower with
  | nil => simp [givenIn]
  | cons e rest ih =>
    obtain ⟨name, d⟩ := e
    simp only [List.cons_append, givenIn, ih, Option.or_assoc]

/-- The value that a setting has in one step: what is given, converted to its type, or else what was
there. -/
def valueAfter (s : RunSettings) (given : Option Datum) (x : Setting) : Except Fault Datum :=
  match given with
  | some d => x.type.convert d
  | none => .ok (s.value x)

/-- Each setting has the value that some entries give to it, converted, or else the one that it had
before. -/
def IsAfter (s : RunSettings) (given : List (String × Datum)) (t : RunSettings) : Prop :=
  ∀ x, s.valueAfter (givenIn given x) x = .ok (t.value x)

theorem isAfter_nil (s : RunSettings) : s.IsAfter [] s := fun _ => rfl

theorem setNamed_eq (s : RunSettings) (name : String) (d : Datum) :
    s.setNamed (name, d) = match Setting.ofLabel? name, d.nonNull? with
      | none, _ => .error (.badValue ("Unknown setting: " ++ name))
      | some _, none => .ok s
      | some x, some d => s.set x d := by
  unfold setNamed
  cases Setting.ofLabel? name with
  | none => rfl
  | some x => cases d <;> rfl

/-- Values with one more entry, converted to the type of the value that its setting had at the
start. -/
def setLoosely (start values : Setting → Datum) (e : String × Datum) :
    Except Fault (Setting → Datum) :=
  match Setting.ofLabel? e.1, e.2.nonNull? with
  | none, _ => .error (.badValue ("Unknown setting: " ++ e.1))
  | some _, none => .ok values
  | some x, some d => (SettingType.convertLike (start x) d).map (Function.update values x)

/-- Values with a layer over them, converted to the types of the values that they replace. -/
def overrideLoosely (values : Setting → Datum) (layer : List (String × Datum)) :
    Except Fault (Setting → Datum) :=
  layer.foldlM (setLoosely values) values

theorem value_setNamed {start : Setting → Datum}
    (typed : ∀ x, SettingType.of? (start x) = some x.type) (s : RunSettings) (e : String × Datum) :
    (s.setNamed e).map value = setLoosely start s.value e := by
  obtain ⟨name, d⟩ := e
  rw [setNamed_eq, setLoosely]
  dsimp only
  split
  · rfl
  · rfl
  · rename_i x d _ _
    rw [value_set, SettingType.convertLike, typed x]

theorem checked_eq_ok {s t : RunSettings} (h : s.checked = .ok t) : t = s := by
  unfold checked at h
  split_ifs at h
  cases h
  rfl

theorem override_eq_ok {s t : RunSettings} {layer : List (String × Datum)}
    (h : s.override layer = .ok t) :
    layer.foldlM setNamed s = .ok t ∧ t.checked = .ok t := by
  obtain ⟨u, folded, passed⟩ := bind_eq_ok.1 h
  obtain rfl := checked_eq_ok passed
  exact ⟨folded, passed⟩

theorem value_override {s t : RunSettings} {layer : List (String × Datum)}
    (h : s.override layer = .ok t) :
    overrideLoosely s.value layer = .ok t.value := by
  have folded := foldlM_map (value_setNamed s.of?_value) layer s
  rw [(override_eq_ok h).1] at folded
  exact folded.symm

theorem value_override_all {layers : List (List (String × Datum))} {s t : RunSettings}
    (h : layers.foldlM override s = .ok t) :
    layers.foldlM overrideLoosely s.value = .ok t.value := by
  induction layers generalizing s with
  | nil =>
    cases h
    rfl
  | cons layer rest ih =>
    rw [List.foldlM_cons] at h ⊢
    obtain ⟨u, first, later⟩ := bind_eq_ok.1 h
    rw [value_override first]
    exact ih later

/-- One entry gives its setting a value, unless it is null. -/
theorem isAfter_setNamed {s t : RunSettings} {e : String × Datum} (h : s.setNamed e = .ok t) :
    s.IsAfter [e] t := by
  obtain ⟨name, d⟩ := e
  intro x
  have shown : setLoosely s.value s.value (name, d) = .ok t.value := by
    rw [← value_setNamed s.of?_value, h]
    rfl
  unfold setLoosely at shown
  simp only [givenIn, Option.none_or]
  split at shown
  · cases shown
  · rename_i null
    simp only [null, ite_self, valueAfter, Except.ok.inj shown]
  · rename_i y d' known given
    obtain ⟨v, read, updated⟩ := map_eq_ok.1 shown
    obtain rfl := Setting.label_of_ofLabel? known
    rw [SettingType.convertLike, s.of?_value y] at read
    rw [← updated]
    by_cases same : x = y
    · subst same
      rw [if_pos rfl, given, Function.update_self]
      exact read
    · rw [if_neg fun labels => same (Setting.label_injective labels).symm,
        Function.update_of_ne same]
      rfl

theorem IsAfter.trans {s t u : RunSettings} {lower higher : List (String × Datum)}
    (first : s.IsAfter lower t) (second : t.IsAfter higher u) : s.IsAfter (lower ++ higher) u := by
  intro x
  rw [givenIn_append]
  have low := first x
  have high := second x
  cases given : givenIn higher x with
  | some d =>
    rw [given] at high
    exact high
  | none =>
    simp only [given, valueAfter, Except.ok.injEq] at high
    rw [Option.none_or, low, high]

theorem isAfter_override {s t : RunSettings} {layer : List (String × Datum)}
    (h : s.override layer = .ok t) :
    s.IsAfter layer t := by
  have folded : Yields (layer.foldlM setNamed s) (s.IsAfter ([] ++ layer)) :=
    .foldlM_from (fun done u e before v h => before.trans (isAfter_setNamed h)) layer
      [] s.isAfter_nil
  exact folded t (override_eq_ok h).1

/-- After several layers each setting has the value of the highest one that gives it. -/
theorem isAfter_override_all {layers : List (List (String × Datum))} {s t : RunSettings}
    (h : layers.foldlM override s = .ok t) : s.IsAfter layers.flatten t := by
  have folded : Yields (layers.foldlM override s) (s.IsAfter ([] ++ layers).flatten) :=
    .foldlM_from (Q := fun done => s.IsAfter done.flatten)
      (fun done u layer before v h => by simpa using before.trans (isAfter_override h)) layers
        [] s.isAfter_nil
  exact folded t h

/-! ## The layers of a run -/

/-- The layer that a settings document gives. -/
def documentLayer (file : Path) (d : Datum) : Except Fault (List (String × Datum)) :=
  if !d.isGiven then .ok []
  else match d with
    | .mapping entries => layerOf entries
    | _ => .error (.badValue ("Settings file " ++ file.render ++ " must contain a mapping"))

/-- The name of a settings file, where one is given. -/
def fileName? (named : Option String) : Option String := named.filter fun s => !s.isEmpty

/-- The settings file: the named one or the standard one. -/
def settingsFile (named : Option String) :
    Path := ((fileName? named).map Path.ofText).getD standardFile

/-- The layer of the settings file, `none` if none is named and the standard one is not there. -/
def fileLayer (readContent : List UInt8 → Except Fault Datum) (t : Tree) (named : Option String) :
    Except Fault (Option (List (String × Datum))) := do
  if ← t.hasEntry (settingsFile named) then
    return some (← t.read (settingsFile named) >>= readContent >>=
      documentLayer (settingsFile named))
  else if (fileName? named).isSome then throw .fileNotFound
  else return none

theorem overrideFile_eq (readContent : List UInt8 → Except Fault Datum) (s : RunSettings)
    (t : Tree) (file : Path) :
    overrideFile readContent s t file =
      (t.read file >>= readContent >>= documentLayer file >>= s.override) := by
  unfold overrideFile
  cases t.read file with
  | error f => rfl
  | ok content =>
    simp only [ok_bind]
    cases readContent content with
    | error f => rfl
    | ok d =>
      simp only [ok_bind, documentLayer]
      cases d.isGiven with
      | false => rfl
      | true => cases d <;> rfl

theorem load_eq (standard : RunSettings) (t : Tree) (named : Option String)
    (environment : List (String × String)) (readContent : List UInt8 → Except Fault Datum) :
    load standard t named environment readContent =
      (fileLayer readContent t named >>= fun file =>
        (file.toList ++ [environmentLayer environment]).foldlM override standard) := by
  have same : load standard t named environment readContent = (do
      let s ←
        if ← t.hasEntry (settingsFile named) then
          overrideFile readContent standard t (settingsFile named)
        else if (fileName? named).isSome then throw .fileNotFound
        else pure standard
      s.override (environmentLayer environment)) := rfl
  rw [same, fileLayer]
  cases t.hasEntry (settingsFile named) with
  | error f => rfl
  | ok present =>
    cases present with
    | true =>
      rw [overrideFile_eq]
      simp [ok_bind, bind_assoc]
    | false =>
      cases (fileName? named).isSome with
      | true => rfl
      | false => simp [ok_bind]

/-- The value that a variable gives: its text, unless that is empty. -/
def variableValue? (environment : List (String × String)) (name : String) : Option Datum :=
  ((Assoc.get? name environment).filter fun s => !s.isEmpty).map .text

/-- The value that the environment gives to a setting. -/
def environmentValue? (environment : List (String × String)) (x : Setting) : Option Datum :=
  x.variableName?.bind (variableValue? environment)

theorem environmentLayer_eq (environment : List (String × String)) :
    environmentLayer environment = Setting.variableNames.flatMap fun v =>
      ((variableValue? environment v.1).map fun d => (v.2.label, d)).toList := by
  rw [environmentLayer, List.filterMap_eq_flatMap_toList]
  congr 1
  funext v
  unfold variableValue?
  cases Assoc.get? v.1 environment with
  | none => rfl
  | some s => cases empty : s.isEmpty <;> simp [empty, Option.filter]

theorem givenIn_environmentLayer (environment : List (String × String)) (x : Setting) :
    givenIn (environmentLayer environment) x = environmentValue? environment x := by
  have one (name : String) (y : Setting) :
      givenIn ((variableValue? environment name).map fun d => (y.label, d)).toList x =
        if y = x then variableValue? environment name else none := by
    unfold variableValue?
    cases (Assoc.get? name environment).filter fun s => !s.isEmpty with
    | none => simp [givenIn]
    | some s => simp [givenIn_singleton, Datum.nonNull?]
  simp only [environmentLayer_eq, Setting.variableNames, List.flatMap_cons, List.flatMap_nil,
    givenIn_append, one]
  cases x <;> simp [environmentValue?, Setting.variableName?, givenIn]

end RunSettings

namespace CommandLine

/-- The value that the command line gives to a setting. The sizes of chunks, the workers and the
budget are options of the commands that use them. -/
def Request.option? (r : Request) : Setting → Option Datum
  | .databasePath => r.databasePath.map .text
  | .binaryDirectory => r.binaryDirectory.map .text
  | .loadChunk => match r.command with
    | .load _ _ chunk _ => chunk.map .int
    | _ => none
  | .indexChunk => match r.command with
    | .index chunk _ _ _ _ _ _ => chunk.map .int
    | _ => none
  | .workers => match r.command with
    | .index _ workers _ _ _ _ _ => workers.map .int
    | _ => none
  | .budget => match r.command with
    | .index _ _ budget _ _ _ _ => budget.map .double
    | _ => none
  | .crashRetries | .timeoutRetries => none

/-- The layers of the command line. -/
def Request.optionLayers (r : Request) :
    List (List (String × Datum)) := r.layer :: r.command.chunkLayer.toList

theorem Request.givenIn_optionLayers (r : Request) (x : Setting) :
    RunSettings.givenIn r.optionLayers.flatten x = r.option? x := by
  have shown {α : Type} {f : α → Datum} (isValue : ∀ a, (f a).nonNull? = some (f a))
      (given : Option α) :
      ((given.map f).getD .null).nonNull? = given.map f := by
    cases given with
    | none => rfl
    | some a => exact isValue a
  have text := shown (f := Datum.text) fun _ => rfl
  have whole := shown (f := Datum.int) fun _ => rfl
  have number := shown (f := Datum.double) fun _ => rfl
  have null : Datum.null.nonNull? = none := rfl
  obtain ⟨_, _, _, _, command⟩ := r
  cases command <;> cases x <;>
    simp [optionLayers, layer, Command.chunkLayer, option?, RunSettings.givenIn,
      Setting.label_injective.eq_iff, text, whole, number, null]

theorem Request.settings_eq {σ : Type} (r : Request) (w : Workspace σ) :
    r.settings w = (RunSettings.fileLayer w.readSettings w.files r.settingsFile >>= fun file =>
      (file.toList ++ RunSettings.environmentLayer w.environment :: r.optionLayers).foldlM
        RunSettings.override (.standard w.processors)) := by
  unfold settings
  rw [RunSettings.load_eq]
  cases given : r.command.chunkLayer <;> simp [bind_assoc, optionLayers, given]

/-- **Each setting has the value of the highest layer that gives it**, converted to the type of the
setting: an option of the command goes before a variable that is not empty, that before a value of
the settings file that is not null, and that before the standard. What is put over these settings
afterwards goes before all of them; where every value is converted to the type of the value that it
replaces, the values are the same, and each keeps the type of its setting. -/
theorem Request.settings_layered {σ : Type} {w : Workspace σ} {r : Request} {s : RunSettings}
    (settled : r.settings w = .ok s) :
    ∃ file, RunSettings.fileLayer w.readSettings w.files r.settingsFile = .ok file ∧
      (∀ x, (RunSettings.standard w.processors).valueAfter ((r.option? x).or
          ((RunSettings.environmentValue? w.environment x).or
            (RunSettings.givenIn (file.getD []) x))) x =
        .ok (s.value x)) ∧
      ∀ layers t, layers.foldlM RunSettings.override s = .ok t →
        s.IsAfter layers.flatten t ∧ (∀ x, SettingType.of? (t.value x) = some x.type) ∧
        (file.toList ++ RunSettings.environmentLayer w.environment :: r.optionLayers ++
          layers).foldlM
          RunSettings.overrideLoosely (RunSettings.standard w.processors).value = .ok t.value := by
  rw [settings_eq] at settled
  obtain ⟨file, read, overridden⟩ := bind_eq_ok.1 settled
  refine ⟨file, read, fun x => ?_, fun layers t later => ⟨RunSettings.isAfter_override_all later,
    t.of?_value, ?_⟩⟩
  · have given := RunSettings.isAfter_override_all overridden x
    have fromFile : file.toList.flatten = file.getD [] := by cases file <;> simp
    rw [List.flatten_append, List.flatten_cons, RunSettings.givenIn_append,
      RunSettings.givenIn_append, givenIn_optionLayers, RunSettings.givenIn_environmentLayer,
      fromFile, Option.or_assoc] at given
    exact given
  · refine RunSettings.value_override_all ?_
    rw [List.foldlM_append, overridden]
    exact later

/-- A workspace with a settings file and nothing else. -/
def workspaceWith (settings : String) : Workspace Unit where
  files := { entries := [(["indexer.yaml"], .file (Text.utf8 settings.toList))] }
  site := ⟨[], fun _ _ => .fetched⟩
  run _ memory := (.timedOut, memory)
  compiler := ()

/-- A workspace with a settings file and some variables. -/
def layeredWorkspace : Workspace Unit :=
  { workspaceWith "workers: 3\ncrash_retries: 2\n" with
    environment := [("DUCKDB_PATH", "c.duckdb"), ("INDEXER_WORKERS", "7"),
      ("INDEXER_COMPILE_TIMEOUT", "")] }

/-- A request to index with chunks of some size. -/
def indexRequest : Request := { command := .index (some 9) none none false false none false }

/-- The size of chunks comes from the command line, the path and the number of workers from
variables, and the number of retries from the settings file. -/
theorem Request.settings_layered_indexRequest :
    ∃ s file d, indexRequest.settings layeredWorkspace = .ok s ∧
      RunSettings.fileLayer layeredWorkspace.readSettings layeredWorkspace.files none = .ok file ∧
      s.value .indexChunk = .int 9 ∧ s.value .workers = .int 7 ∧
        s.value .databasePath = .text "c.duckdb" ∧
      RunSettings.givenIn (file.getD []) .crashRetries = some d ∧
        SettingType.whole.convert d = .ok (.int 2) := by
  have settled : indexRequest.settings layeredWorkspace =
      .ok { databasePath := some "c.duckdb"
            indexChunk := 9
            workers := 7
            budget := .ofRatio false 120 1
            crashRetries := 2 } := by
    decide +kernel
  obtain ⟨file, read, layered, -⟩ := settings_layered settled
  have seven : SettingType.whole.convert (.text "7") = .ok (.int 7) := by
    rw [SettingType.convert, show Datum.toInteger (.text "7") = .ok 7 by decide +kernel]
    rfl
  have retries := layered .crashRetries
  change RunSettings.valueAfter _ (RunSettings.givenIn (file.getD []) .crashRetries) _ =
    _ at retries
  cases given : RunSettings.givenIn (file.getD []) .crashRetries with
  | none =>
    -- the standard is another number
    rw [given] at retries
    cases retries
  | some d =>
    rw [given] at retries
    refine ⟨_, file, d, settled, read, ?_, ?_, ?_, given, retries⟩
    · exact (Except.ok.inj (layered .indexChunk)).symm
    · exact (Except.ok.inj (seven.symm.trans (layered .workers))).symm
    · exact (Except.ok.inj (layered .databasePath)).symm

end CommandLine

end SelectorCatalog
