import SelectorCatalog.Proofs.Config.Layers

/-!
# Settings that cannot be used

A run whose settings cannot be used should end as misuse, before a database is opened. Files that
are missing, in the way or no text, words that are no numbers, unknown names and values that no run
can be made with are all provided for. Three things are not, and all of them come from the settings
file: a text that is not well formed, a key that cannot name a setting, and a value that its setting
cannot take (`SettingType.Untakable`). `CommandLine.Request.Stray` lists the faults that they mean,
`CommandLine.Request.settings_stray_iff` says that these are all, and `CommandLine.run_settings`
what it means for a run.
-/

set_option autoImplicit false

namespace SelectorCatalog

open CommandLine (isMisuse)

/-! ## Files -/

namespace Tree

theorem failsOnly_follow (t : Tree) (names : List String) (l : Location) :
    FailsOnly (t.follow l names) fun f => isMisuse f = true := by
  induction names generalizing l with
  | nil => exact .ok l
  | cons name rest ih =>
    rw [follow]
    split
    · exact .error rfl
    · exact .error rfl
    split
    · exact ih _
    split
    · exact .error rfl
    · exact ih _

theorem failsOnly_locate (t : Tree) (p : Path) :
    FailsOnly (t.locate p) fun f => isMisuse f = true := by
  unfold locate
  split
  · exact .error rfl
  split
  · exact .error rfl
  · exact t.failsOnly_follow _ _

theorem failsOnly_find (t : Tree) (p : Path) : FailsOnly (t.find p) fun f => isMisuse f = true := by
  refine .bind (t.failsOnly_locate p) fun l => ?_
  split
  · exact .pure _
  · exact .error rfl

theorem failsOnly_hasEntry (t : Tree) (p : Path) :
    FailsOnly (t.hasEntry p) fun f => isMisuse f = true := by
  unfold hasEntry
  split
  · exact .ok _
  · exact .error rfl
  · exact .ok _

theorem failsOnly_read (t : Tree) (p : Path) : FailsOnly (t.read p) fun f => isMisuse f = true := by
  refine .bind (t.failsOnly_find p) fun e => ?_
  split
  · refine .bind (t.failsOnly_locate p) fun l => ?_
    split
    · exact .pure _
    · exact .error rfl
  · exact .error rfl

end Tree

/-! ## Values -/

theorem failsOnly_integerOf (s : String) : FailsOnly (integerOf s) fun f => isMisuse f = true := by
  intro f failed
  unfold integerOf at failed
  cases read : Text.readInteger s with
  | ok n =>
    rw [read] at failed
    cases failed
  | error fault =>
    rw [read] at failed
    cases failed
    cases fault <;> rfl

theorem failsOnly_doubleOf (s : String) : FailsOnly (doubleOf s) fun f => isMisuse f = true := by
  unfold doubleOf
  split
  · exact .ok _
  · exact .error rfl

/-- Whether a value is of a kind that gives no number. -/
def Datum.isNoNumber : Datum → Bool
  | date _ _ _ | list _ | mapping _ => true
  | _ => false

theorem Datum.convert_noNumber {d : Datum} (isNone : d.isNoNumber = true) :
    d.toInteger = .error .wrongType ∧ d.toDouble = .error .wrongType := by
  cases d with
  | date | list | mapping => exact ⟨rfl, rfl⟩
  | _ => cases isNone

namespace SettingType

/-- A value that a setting of some type cannot take, with the fault that this means. -/
inductive Untakable : SettingType → Datum → Fault → Prop
  /-- No number is made of a value of this kind. -/
  | kind {t : SettingType} {d : Datum} (numeric : t = whole ∨ t = number)
    (isNone : d.isNoNumber = true) :
    Untakable t d .wrongType
  /-- No whole number is infinite. -/
  | infinite (negative : Bool) : Untakable whole (.double (.infinite negative)) .overflow
  /-- A whole number is past the greatest double. -/
  | tooGreat {n : Int} (isNone : Double.ofInt? n = none) : Untakable number (.int n) .overflow
  /-- A value of another kind is refused as a whole number. -/
  | otherWhole {v : OtherValue} {f : Fault} (refused : v.whole = .error f)
    (stray : isMisuse f = false) :
    Untakable whole (.other v) f
  /-- A value of another kind is refused as a number. -/
  | otherNumber {v : OtherValue} {f : Fault} (refused : v.number = .error f)
    (stray : isMisuse f = false) :
    Untakable number (.other v) f

variable {d : Datum} {f : Fault}

theorem isMisuse_of_toText (failed : d.toText = .error f) : isMisuse f = true := by
  unfold Datum.toText at failed
  split at failed
  · cases failed
    rfl
  · cases failed

theorem untakable_of_toInteger (given : d.nonNull? = some d) (failed : d.toInteger = .error f)
    (stray : isMisuse f = false) : Untakable whole d f := by
  cases d with
  | null => cases given
  | bool b | int n => cases failed
  | double x =>
    cases x with
    | nan =>
      cases failed
      cases stray
    | infinite negative =>
      cases failed
      exact .infinite negative
    | finite negative m e => cases failed
  | text s =>
    rw [failsOnly_integerOf s f failed] at stray
    cases stray
  | date | list | mapping =>
    cases failed
    exact .kind (.inl rfl) rfl
  | other v => exact .otherWhole failed stray

theorem ofInt?_of_doubleOfInt {n : Int} (failed : Datum.toDouble.doubleOfInt n = .error f) :
    Double.ofInt? n = none ∧ f = .overflow := by
  unfold Datum.toDouble.doubleOfInt at failed
  split at failed
  · cases failed
  · rename_i isNone
    cases failed
    exact ⟨isNone, rfl⟩

theorem untakable_of_toDouble (given : d.nonNull? = some d) (failed : d.toDouble = .error f)
    (stray : isMisuse f = false) : Untakable number d f := by
  cases d with
  | null => cases given
  | double x => cases failed
  | bool b =>
    have isNone := (ofInt?_of_doubleOfInt failed).1
    cases b <;> exact absurd isNone (by decide)
  | int n =>
    obtain ⟨isNone, rfl⟩ := ofInt?_of_doubleOfInt failed
    exact .tooGreat isNone
  | text s =>
    rw [failsOnly_doubleOf s f failed] at stray
    cases stray
  | date | list | mapping =>
    cases failed
    exact .kind (.inr rfl) rfl
  | other v => exact .otherNumber failed stray

/-- The conversion of a value fails in a way that is not provided for exactly if the value cannot be
taken. -/
theorem convert_stray_iff {t : SettingType} (given : d.nonNull? = some d) :
    t.convert d = .error f ∧ isMisuse f = false ↔ Untakable t d f := by
  constructor
  · rintro ⟨failed, stray⟩
    cases t with
    | text =>
      rw [isMisuse_of_toText (map_eq_error.1 failed)] at stray
      cases stray
    | flag => cases failed
    | whole => exact untakable_of_toInteger given (map_eq_error.1 failed) stray
    | number => exact untakable_of_toDouble given (map_eq_error.1 failed) stray
  · rintro (⟨rfl | rfl, isNone⟩ | negative | isNone | ⟨failed, stray⟩ | ⟨failed, stray⟩)
    · exact ⟨map_eq_error.2 (Datum.convert_noNumber isNone).1, rfl⟩
    · exact ⟨map_eq_error.2 (Datum.convert_noNumber isNone).2, rfl⟩
    · exact ⟨rfl, rfl⟩
    · refine ⟨map_eq_error.2 ?_, rfl⟩
      rw [Datum.toDouble, Datum.toDouble.doubleOfInt, isNone]
    · exact ⟨map_eq_error.2 failed, stray⟩
    · exact ⟨map_eq_error.2 failed, stray⟩

end SettingType

/-- A setting can take a value, or is refused it for a reason that is provided for. -/
def Setting.Takes (x : Setting) (d : Datum) : Prop := ∀ f, ¬x.type.Untakable d f

namespace Setting

theorem takes_null (x : Setting) : x.Takes .null := by
  unfold Takes
  generalize x.type = t
  rintro f ⟨-, ⟨⟩⟩

theorem takes_text (x : Setting) (s : String) : x.Takes (.text s) := by
  unfold Takes
  generalize x.type = t
  rintro f ⟨-, ⟨⟩⟩

theorem takes_int {x : Setting} (isWhole : x.type = .whole) (n : Int) : x.Takes (.int n) := by
  unfold Takes
  rw [isWhole]
  rintro f ⟨-, ⟨⟩⟩

theorem takes_double {x : Setting} (isNumber : x.type = .number) (b : Double) :
    x.Takes (.double b) := by
  unfold Takes
  rw [isNumber]
  rintro f ⟨-, ⟨⟩⟩

theorem takes_getD {x : Setting} {α : Type} {value : α → Datum} (each : ∀ a, x.Takes (value a))
    (given : Option α) :
    x.Takes ((given.map value).getD .null) := by
  cases given with
  | none => exact x.takes_null
  | some a => exact each a

end Setting

theorem Datum.eq_of_nonNull? {d e : Datum} (h : d.nonNull? = some e) : d = e := by
  cases d <;> cases h <;> rfl

theorem SettingType.Untakable.nonNull?_eq {t : SettingType} {d : Datum} {f : Fault}
    (h : t.Untakable d f) :
    d.nonNull? = some d := by
  cases h with
  | kind _ isNone =>
    cases d with
    | null => cases isNone
    | _ => rfl
  | infinite | tooGreat | otherWhole | otherNumber => rfl

namespace RunSettings

/-! ## Layers -/

theorem set_eq_error {s : RunSettings} {x : Setting} {d : Datum} {f : Fault} :
    s.set x d = .error f ↔ x.type.convert d = .error f := by
  rw [← map_eq_error (f := value), value_set, map_eq_error]

theorem setNamed_stray_iff {s : RunSettings} {e : String × Datum} {f : Fault} :
    s.setNamed e = .error f ∧ isMisuse f = false ↔
      ∃ x : Setting, x.label = e.1 ∧ x.type.Untakable e.2 f := by
  obtain ⟨name, d⟩ := e
  rw [setNamed_eq]
  constructor
  · rintro ⟨failed, stray⟩
    split at failed
    · cases failed
      cases stray
    · cases failed
    · rename_i x d' known given
      obtain rfl := Datum.eq_of_nonNull? given
      exact ⟨x, Setting.label_of_ofLabel? known,
        (SettingType.convert_stray_iff given).1 ⟨set_eq_error.1 failed, stray⟩⟩
  · rintro ⟨x, rfl, untakable⟩
    have given := untakable.nonNull?_eq
    obtain ⟨failed, stray⟩ := (SettingType.convert_stray_iff given).2 untakable
    dsimp only at given failed ⊢
    rw [Setting.ofLabel?_label, given]
    exact ⟨set_eq_error.2 failed, stray⟩

theorem failsOnly_checked (s : RunSettings) : FailsOnly s.checked fun f => isMisuse f = true := by
  unfold checked
  split_ifs
  · exact .error rfl
  · exact .error rfl
  · exact .error rfl
  · exact .error rfl
  · exact .ok s

/-- A layer has a value that its setting cannot take, after values that are set. -/
def Spoils (s : RunSettings) (layer : List (String × Datum)) (f : Fault) : Prop :=
  ∃ before, ∃ x : Setting, ∃ d after t, layer = before ++ (x.label, d) :: after ∧
    before.foldlM setNamed s = .ok t ∧ x.type.Untakable d f

theorem Spoils.ne_nil {s : RunSettings} {layer : List (String × Datum)} {f : Fault}
    (h : s.Spoils layer f) :
    layer ≠ [] := by
  obtain ⟨before, x, d, after, t, rfl, -⟩ := h
  simp

theorem override_stray_iff {s : RunSettings} {layer : List (String × Datum)} {f : Fault} :
    s.override layer = .error f ∧ isMisuse f = false ↔ s.Spoils layer f := by
  constructor
  · rintro ⟨failed, stray⟩
    rcases bind_eq_error.1 failed with folded | ⟨t, -, unchecked⟩
    · obtain ⟨before, ⟨name, d⟩, after, t, rfl, done, failed⟩ := foldlM_eq_error.1 folded
      obtain ⟨x, rfl, untakable⟩ := setNamed_stray_iff.1 ⟨failed, stray⟩
      exact ⟨before, x, d, after, t, rfl, done, untakable⟩
    · rw [failsOnly_checked t f unchecked] at stray
      cases stray
  · rintro ⟨before, x, d, after, t, rfl, done, untakable⟩
    obtain ⟨failed, stray⟩ := setNamed_stray_iff (e := (x.label, d)).2 ⟨x, rfl, untakable⟩
    exact ⟨bind_eq_error.2 (.inl (foldlM_eq_error.2 ⟨before, _, after, t, rfl, done, failed⟩)),
      stray⟩

/-- Layers without a value that a setting cannot take only fail as misuse. -/
theorem failsOnly_override_all {layers : List (List (String × Datum))}
    (takes : ∀ layer ∈ layers, ∀ e ∈ layer, ∃ x : Setting, x.label = e.1 ∧ x.Takes e.2)
    (s : RunSettings) : FailsOnly (layers.foldlM override s) fun f => isMisuse f = true := by
  intro f failed
  obtain ⟨before, layer, after, t, rfl, -, refused⟩ := foldlM_eq_error.1 failed
  by_contra stray
  obtain ⟨_, x, d, _, _, rfl, -, untakable⟩ := override_stray_iff.1 ⟨refused, by simpa using stray⟩
  obtain ⟨y, label, takes⟩ := takes _ (List.mem_append_right _ List.mem_cons_self) (x.label, d)
    (List.mem_append_right _ List.mem_cons_self)
  obtain rfl := Setting.label_injective label
  exact takes f untakable

/-- The last of several layers is checked. -/
theorem checked_override_all {layers : List (List (String × Datum))} (notNone : layers ≠ [])
    {s t : RunSettings} (h : layers.foldlM override s = .ok t) : t.checked = .ok t := by
  obtain ⟨lower, last, rfl⟩ := layers.eq_nil_or_concat'.resolve_left notNone
  rw [List.foldlM_append] at h
  obtain ⟨u, -, overridden⟩ := bind_eq_ok.1 h
  obtain ⟨v, done, ⟨⟩⟩ := bind_eq_ok.1 overridden
  exact (override_eq_ok done).2

/-! ## The settings file -/

/-- A key that cannot name a setting: what is no text, or the word `self`. -/
def isStrayKey : Datum → Bool
  | .text name => name == "self"
  | _ => true

theorem layerOf_eq_error {entries : List (Datum × Datum)} {f : Fault} :
    layerOf entries = .error f ↔ f = .wrongType ∧ ∃ e ∈ entries, isStrayKey e.1 = true := by
  have fails : FailsOnly (layerOf entries) (· = .wrongType) := by
    refine .mapM (fun e => ?_) entries
    split
    · split
      · exact .error rfl
      · exact .ok _
    · exact .error rfl
  have succeeds : Succeeds (layerOf entries) ↔ ∀ e ∈ entries, isStrayKey e.1 = false := by
    rw [layerOf, succeeds_mapM]
    refine forall₂_congr fun e _ => ?_
    obtain ⟨key, d⟩ := e
    cases key with
    | text name => cases same : name == "self" <;> simp [isStrayKey, same]
    | _ => simp [isStrayKey]
  cases read : layerOf entries with
  | ok layer =>
    have usable := succeeds.1 ⟨layer, read⟩
    constructor
    · intro failed
      cases failed
    · rintro ⟨-, e, mem, stray⟩
      rw [usable e mem] at stray
      cases stray
  | error g =>
    obtain rfl := fails g read
    have unusable : ¬∀ e ∈ entries, isStrayKey e.1 = false := fun usable => by
      obtain ⟨layer, found⟩ := succeeds.2 usable
      rw [read] at found
      cases found
    constructor
    · rintro ⟨⟩
      exact ⟨rfl, by simpa using unusable⟩
    · rintro ⟨rfl, -⟩
      rfl

theorem documentLayer_mapping (file : Path) (entries : List (Datum × Datum)) :
    documentLayer file (.mapping entries) = layerOf entries := by
  cases entries <;> rfl

/-- A document that is no mapping gives nothing or is misused. -/
theorem documentLayer_cases (file : Path) (d : Datum) :
    (∃ entries, d = .mapping entries) ∨ documentLayer file d = .ok [] ∨
      ∃ f, documentLayer file d = .error f ∧ isMisuse f = true := by
  by_cases isMapping : ∃ entries, d = .mapping entries
  · exact .inl isMapping
  · refine .inr ?_
    unfold documentLayer
    split
    · exact .inl rfl
    · split
      · exact absurd ⟨_, rfl⟩ isMapping
      · exact .inr ⟨_, rfl, rfl⟩

theorem mapping_of_documentLayer_error {file : Path} {d : Datum} {f : Fault}
    (failed : documentLayer file d = .error f) (stray : isMisuse f = false) :
    ∃ entries, d = .mapping entries ∧ layerOf entries = .error f := by
  rcases documentLayer_cases file d with ⟨entries, rfl⟩ | blank | ⟨g, other, misuse⟩
  · exact ⟨entries, rfl, by rwa [documentLayer_mapping] at failed⟩
  · rw [blank] at failed
    cases failed
  · rw [other] at failed
    cases failed
    rw [stray] at misuse
    cases misuse

theorem mapping_of_documentLayer {file : Path} {d : Datum} {layer : List (String × Datum)}
    (given : documentLayer file d = .ok layer) (notNone : layer ≠ []) :
    ∃ entries, d = .mapping entries ∧ layerOf entries = .ok layer := by
  rcases documentLayer_cases file d with ⟨entries, rfl⟩ | blank | ⟨g, other, -⟩
  · exact ⟨entries, rfl, by rwa [documentLayer_mapping] at given⟩
  · rw [blank] at given
    cases given
    exact absurd rfl notNone
  · rw [other] at given
    cases given

/-- The settings file is there and has these bytes. -/
structure HasContent (t : Tree) (named : Option String) (content : List UInt8) : Prop where
  present : t.hasEntry (settingsFile named) = .ok true
  read : t.read (settingsFile named) = .ok content

theorem HasContent.fileLayer_eq {t : Tree} {named : Option String} {content : List UInt8}
    (held : HasContent t named content) (readContent : List UInt8 → Except Fault Datum) :
    fileLayer readContent t named =
      (readContent content >>= documentLayer (settingsFile named)).map some := by
  rw [fileLayer, held.present, ok_bind, if_pos rfl, held.read, ok_bind]
  cases readContent content >>= documentLayer (settingsFile named) <;> rfl

/-- Without bytes there is no settings file, or it is misused. -/
theorem fileLayer_cases (readContent : List UInt8 → Except Fault Datum) (t : Tree)
    (named : Option String) :
    (∃ content, HasContent t named content) ∨ fileLayer readContent t named = .ok none ∨
      ∃ f, fileLayer readContent t named = .error f ∧ isMisuse f = true := by
  unfold fileLayer
  cases present : t.hasEntry (settingsFile named) with
  | error f => exact .inr (.inr ⟨f, rfl, t.failsOnly_hasEntry _ f present⟩)
  | ok there =>
    cases there with
    | true =>
      cases read : t.read (settingsFile named) with
      | ok content => exact .inl ⟨content, present, read⟩
      | error f => exact .inr (.inr ⟨f, rfl, t.failsOnly_read _ f read⟩)
    | false =>
      rw [ok_bind, if_neg Bool.false_ne_true]
      split
      · exact .inr (.inr ⟨_, rfl, rfl⟩)
      · exact .inr (.inl rfl)

end RunSettings

namespace CommandLine

open RunSettings

/-- The faults of a settings file that no ending is provided for: its bytes cannot be read, in
another way than as a bad value, a key cannot name a setting, or a setting cannot take its value. -/
inductive Request.Stray {σ : Type} (r : Request) (w : Workspace σ) : Fault → Prop
  | content {content : List UInt8} {f : Fault} (held : HasContent w.files r.settingsFile content)
    (refused : w.readSettings content = .error f) (stray : isMisuse f = false) : Stray r w f
  | key {content : List UInt8} {entries : List (Datum × Datum)} {e : Datum × Datum}
    (held : HasContent w.files r.settingsFile content)
    (read : w.readSettings content = .ok (.mapping entries))
    (mem : e ∈ entries) (stray : isStrayKey e.1 = true) : Stray r w .wrongType
  | value {content : List UInt8} {entries : List (Datum × Datum)}
    {layer : List (String × Datum)} {f : Fault}
    (held : HasContent w.files r.settingsFile content)
    (read : w.readSettings content = .ok (.mapping entries))
    (keyed : layerOf entries = .ok layer)
    (spoils : (RunSettings.standard w.processors).Spoils layer f) : Stray r w f

/-- The settings can take what the environment and the command line give. -/
theorem Request.takes_higherLayers {σ : Type} (r : Request) (w : Workspace σ) :
    ∀ layer ∈ environmentLayer w.environment :: r.optionLayers, ∀ e ∈ layer,
      ∃ x : Setting, x.label = e.1 ∧ x.Takes e.2 := by
  intro layer mem e there
  rcases List.mem_cons.1 mem with rfl | mem
  · obtain ⟨⟨name, x⟩, -, entry⟩ := List.mem_filterMap.1 there
    split at entry
    · split at entry
      · cases entry
      · cases entry
        exact ⟨x, rfl, x.takes_text _⟩
    · cases entry
  rcases List.mem_cons.1 mem with rfl | mem
  · simp only [Request.layer, List.mem_cons, List.not_mem_nil, or_false] at there
    rcases there with rfl | rfl | rfl | rfl
    · exact ⟨.databasePath, rfl, Setting.takes_getD (Setting.takes_text _) _⟩
    · exact ⟨.binaryDirectory, rfl, Setting.takes_getD (Setting.takes_text _) _⟩
    · exact ⟨.workers, rfl, Setting.takes_getD (Setting.takes_int rfl) _⟩
    · exact ⟨.budget, rfl, Setting.takes_getD (Setting.takes_double rfl) _⟩
  · have found : r.command.chunkLayer = some layer := by simpa using mem
    unfold Command.chunkLayer at found
    split at found
    · cases found
      obtain rfl := List.mem_singleton.1 there
      exact ⟨.loadChunk, rfl, Setting.takes_getD (Setting.takes_int rfl) _⟩
    · cases found
      obtain rfl := List.mem_singleton.1 there
      exact ⟨.indexChunk, rfl, Setting.takes_getD (Setting.takes_int rfl) _⟩
    · cases found

/-- With bytes of the settings file, their layer is put over the standard settings, and the higher
ones over that. -/
theorem Request.settings_of_hasContent {σ : Type} {r : Request} {w : Workspace σ}
    {content : List UInt8} (held : HasContent w.files r.settingsFile content) :
    r.settings w = (w.readSettings content >>=
      documentLayer (RunSettings.settingsFile r.settingsFile) >>= fun layer =>
        (RunSettings.standard w.processors).override layer >>= fun s =>
        (environmentLayer w.environment :: r.optionLayers).foldlM override s) := by
  rw [settings_eq, held.fileLayer_eq]
  cases w.readSettings content >>= documentLayer (RunSettings.settingsFile r.settingsFile) <;> rfl

theorem Request.failsOnly_higherLayers {σ : Type} (r : Request)
    (w : Workspace σ) (s : RunSettings) :
    FailsOnly ((environmentLayer w.environment :: r.optionLayers).foldlM override s) fun f =>
      isMisuse f = true :=
  failsOnly_override_all (r.takes_higherLayers w) s

theorem Request.stray_of_hasContent {σ : Type} {r : Request} {w : Workspace σ}
    {content : List UInt8} {f : Fault} (held : HasContent w.files r.settingsFile content)
    (failed : r.settings w = .error f) (stray : isMisuse f = false) :
    r.Stray w f := by
  rw [settings_of_hasContent held] at failed
  rcases bind_eq_error.1 failed with document | ⟨layer, document, overridden⟩
  · rcases bind_eq_error.1 document with refused | ⟨d, read, refused⟩
    · exact .content held refused stray
    · obtain ⟨entries, rfl, unkeyed⟩ := mapping_of_documentLayer_error refused stray
      obtain ⟨rfl, e, mem, strayKey⟩ := layerOf_eq_error.1 unkeyed
      exact .key held read mem strayKey
  · rcases bind_eq_error.1 overridden with refused | ⟨s, -, later⟩
    · have spoils := override_stray_iff.1 ⟨refused, stray⟩
      obtain ⟨d, read, given⟩ := bind_eq_ok.1 document
      obtain ⟨entries, rfl, keyed⟩ := mapping_of_documentLayer given spoils.ne_nil
      exact .value held read keyed spoils
    · rw [r.failsOnly_higherLayers w s f later] at stray
      cases stray

/-- **The settings fail in a way that is not provided for exactly if the settings file has a stray
fault.** -/
theorem Request.settings_stray_iff {σ : Type} {r : Request} {w : Workspace σ} {f : Fault} :
    r.settings w = .error f ∧ isMisuse f = false ↔ r.Stray w f := by
  constructor
  · rintro ⟨failed, stray⟩
    rcases fileLayer_cases w.readSettings w.files r.settingsFile with
      ⟨content, held⟩ | absent | ⟨g, refused, misuse⟩
    · exact stray_of_hasContent held failed stray
    · rw [settings_eq, absent] at failed
      rw [r.failsOnly_higherLayers w _ f failed] at stray
      cases stray
    · rw [settings_eq, refused] at failed
      cases failed
      rw [stray] at misuse
      cases misuse
  · intro file
    cases file with
    | content held refused stray =>
      rw [settings_of_hasContent held, refused]
      exact ⟨rfl, stray⟩
    | key held read mem strayKey =>
      rw [settings_of_hasContent held, read, ok_bind, documentLayer_mapping,
        layerOf_eq_error.2 ⟨rfl, _, mem, strayKey⟩]
      exact ⟨rfl, rfl⟩
    | value held read keyed spoils =>
      obtain ⟨failed, stray⟩ := override_stray_iff.2 spoils
      rw [settings_of_hasContent held, read, ok_bind, documentLayer_mapping, keyed, ok_bind, failed]
      exact ⟨rfl, stray⟩

theorem Request.checked_settings {σ : Type} {r : Request} {w : Workspace σ} {s : RunSettings}
    (settled : r.settings w = .ok s) : s.checked = .ok s := by
  rw [settings_eq] at settled
  obtain ⟨file, -, overridden⟩ := bind_eq_ok.1 settled
  exact checked_override_all
    (List.append_ne_nil_of_right_ne_nil _ (List.cons_ne_nil _ _)) overridden

theorem databases_openLog {σ : Type} (w : Workspace σ) (log : Option String) :
    (openLog w log).2.databases = w.databases := by
  unfold openLog
  split
  · rfl
  · dsimp only
    split <;> rfl

theorem run_eq_runRequest {σ : Type} (w : Workspace σ) {arguments : List String} {r : Request}
    (asked : Request.read arguments = .ok r) : run w arguments = runRequest w r := by
  simp only [run, asked]

/-- **Settings that cannot be used end a run as misuse, unless the settings file has a stray
fault.** Without one, a run comes to settings that pass all checks and to its command, or it ends as
misuse with nothing done. A stray fault ends the run as it is, with nothing done either. A log file
that cannot be made ends the run before any settings are read. -/
theorem run_settings {σ : Type} {w w' : Workspace σ} {arguments : List String} {r : Request}
    {opened : Except Fault Unit} (asked : Request.read arguments = .ok r)
    (logged : openLog w r.logFile = (opened, w')) :
    (opened = .ok () →
      ((∀ f, ¬r.Stray w' f) → run w arguments = (.misuse, w') ∨
        ∃ s, r.settings w' = .ok s ∧ s.checked = .ok s ∧
          run w arguments = runCommand w' s r.command) ∧
      ∀ f, r.Stray w' f → run w arguments = (.faulted f, w')) ∧
    (∀ f, opened = .error f → run w arguments = (.faulted f, w')) ∧ w'.databases = w.databases := by
  have runs := run_eq_runRequest w asked
  rw [runRequest, logged] at runs
  refine ⟨?_, ?_, ?_⟩
  · rintro rfl
    dsimp only at runs
    refine ⟨fun clean => ?_, fun f stray => ?_⟩
    · cases settled : r.settings w' with
      | ok s =>
        rw [settled] at runs
        exact .inr ⟨s, rfl, Request.checked_settings settled, runs⟩
      | error f =>
        rw [settled] at runs
        have misuse : isMisuse f = true := by
          by_contra stray
          exact clean f (Request.settings_stray_iff.1 ⟨settled, by simpa using stray⟩)
        exact .inl (runs.trans (by dsimp only; rw [if_pos misuse]))
    · obtain ⟨failed, notMisuse⟩ := Request.settings_stray_iff.2 stray
      rw [runs, failed]
      dsimp only
      rw [if_neg (by simp [notMisuse])]
  · rintro f rfl
    exact runs
  · rw [← databases_openLog w r.logFile, logged]

/-- A command line that asks for the statistics of a database. -/
def statisticsLine : List String := ["--duckdb-path", "c.duckdb", "stats"]

/-- The request of `statisticsLine`. -/
def statisticsRequest : Request := { databasePath := some "c.duckdb", command := .statistics }

theorem read_statisticsLine : Request.read statisticsLine = .ok statisticsRequest := rfl

theorem openLog_statisticsRequest (settings : String) :
    openLog (workspaceWith settings) statisticsRequest.logFile = (.ok (), workspaceWith settings) :=
  rfl

/-- A list is no number of workers and ends the run as it is, and too few workers end it as
misuse. -/
theorem run_settings_workers :
    run (workspaceWith "workers: [1]\n") statisticsLine =
      (.faulted .wrongType, workspaceWith "workers: [1]\n") ∧
      run (workspaceWith "workers: 0\n") statisticsLine =
        (.misuse, workspaceWith "workers: 0\n") := by
  constructor
  · have failed : statisticsRequest.settings (workspaceWith "workers: [1]\n") =
        .error .wrongType := by
      decide +kernel
    have stray := Request.settings_stray_iff.1 ⟨failed, rfl⟩
    exact ((run_settings read_statisticsLine (openLog_statisticsRequest _)).1 rfl).2 _ stray
  · have failed : statisticsRequest.settings (workspaceWith "workers: 0\n") =
        .error (.badValue "workers must be positive") := by decide +kernel
    have clean : ∀ f, ¬statisticsRequest.Stray (workspaceWith "workers: 0\n") f := by
      intro f stray
      obtain ⟨same, notMisuse⟩ := Request.settings_stray_iff.2 stray
      rw [failed] at same
      cases same
      cases notMisuse
    rcases ((run_settings read_statisticsLine (openLog_statisticsRequest _)).1 rfl).1 clean with
      misuse | ⟨s, settled, -⟩
    · exact misuse
    · rw [failed] at settled
      cases settled

/-- **A settings file that is not well formed ends the run with a fault**, where it should end as
misuse. -/
theorem run_malformed_settings :
    run (workspaceWith "a: [") statisticsLine = (.faulted .badSettings, workspaceWith "a: [") := by
  have failed : statisticsRequest.settings (workspaceWith "a: [") = .error .badSettings := by
    decide +kernel
  rw [run_eq_runRequest _ read_statisticsLine, runRequest, openLog_statisticsRequest]
  simp only [failed]
  rfl

end CommandLine

end SelectorCatalog
