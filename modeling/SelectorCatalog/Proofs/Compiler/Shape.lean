import SelectorCatalog.Compiler.Compilation
import SelectorCatalog.Proofs.Json.Shape

/-!
# The shape of a compiler's answer

A document is a compiler's answer if it is an object whose members have the shape
`CompilerOutput.HasShape`. Exactly then it is read to the end (`Compilation.succeeds_withOutput`);
any other document stops the reading with one of the faults that `Fault.IsOfShape` lists
(`Compilation.failsOnly_withOutput`).
-/

set_option autoImplicit false

namespace SelectorCatalog

/-! ## Texts -/

namespace Text

theorem mem_dropWhile_isBlank {c : Char} {s : List Char} (mem : c ∈ s) (shown : isBlank c = false) :
    c ∈ s.dropWhile isBlank := by
  rw [← List.takeWhile_append_dropWhile (p := isBlank) (l := s), List.mem_append] at mem
  rcases mem with blank | rest
  · rw [List.all_eq_true.1 List.all_takeWhile c blank] at shown
    cases shown
  · exact rest

/-- A character that is no blank stays. -/
theorem mem_trim {c : Char} {s : String} (mem : c ∈ s.toList) (shown : isBlank c = false) :
    c ∈ (trim s).toList := by
  rw [trim, String.toList_ofList, trimList, List.mem_reverse]
  exact mem_dropWhile_isBlank (List.mem_reverse.2 (mem_dropWhile_isBlank mem shown)) shown

end Text

namespace CompilerOutput

open Value (IsObject IsObjectOf ofMember)

/-! ## What an answer holds -/

/-- What a finding says: its formatted message, else its plain one. -/
def messageOf (ms : List (String × Value)) : Value :=
  (ofMember "formattedMessage" ms).orElse (ofMember "message" ms)

/-- Whether a finding is an error. -/
def isError (ms : List (String × Value)) : Bool := (ofMember "severity" ms).isText "error"

/-- A finding is an object. If it has a message, this is a text, and that of an error is not
blank. -/
inductive IsFinding : Value → Prop where
  | silent {ms : List (String × Value)} (silent : (messageOf ms).isGiven = false) :
    IsFinding (.object ms)
  | told {ms : List (String × Value)} {s : String} (text : messageOf ms = .text s)
      (shown : isError ms = true → Text.trim s ≠ "") : IsFinding (.object ms)

/-- What an answer holds as its findings. -/
def findingsIn (ms : List (String × Value)) : Value := (Assoc.get? "errors" ms).getD (.list [])

/-- An answer reports an error. -/
def ReportsError (ms : List (String × Value)) : Prop :=
  ∃ items finding, (findingsIn ms).parts = .ok items ∧ .object finding ∈ items ∧
    isError finding = true

/-- An entry of a contract is an object; what it tells of the machine code is one too. -/
def IsEntry (v : Value) : Prop :=
  ∃ ms, v = .object ms ∧ ((ofMember "evm" ms).isGiven = true → (ofMember "evm" ms).IsObject)

/-- The members of an answer have the shape of one. Contracts and syntax trees count only if no
error is reported. -/
structure HasShape (ms : List (String × Value)) : Prop where
  findings : ∃ items, (findingsIn ms).parts = .ok items ∧ ∀ item ∈ items, IsFinding item
  contracts : ¬ReportsError ms →
    ((Assoc.get? "contracts" ms).getD (.object [])).IsObjectOf (IsObjectOf IsEntry)
  trees : ¬ReportsError ms → ((Assoc.get? "sources" ms).getD (.object [])).IsObjectOf IsObject

/-! ## Findings -/

/-- What is shown of a finding: its message, or the finding itself if it has none. -/
def shownOf (ms : List (String × Value)) : Value :=
  (messageOf ms).orElse (.text (Value.quoted (.object ms)))

theorem finding_object (ms : List (String × Value)) :
    finding (.object ms) = (shownOf ms).asText.map fun s => (isError ms, Text.trim s) := by
  show ((shownOf ms).asText >>= fun s => pure (isError ms, Text.trim s)) = _
  cases (shownOf ms).asText <;> rfl

theorem finding_ok {v : Value} {e : Bool} {s : String} :
    finding v = .ok (e, s) ↔
      ∃ ms t, v = .object ms ∧ shownOf ms = .text t ∧ e = isError ms ∧ s = Text.trim t := by
  cases v with
  | object ms =>
    rw [finding_object]
    cases shown : shownOf ms <;> simp [Value.asText, Except.map, eq_comm, shown]
  | _ => simp [finding, Value.field, Value.fieldD, Value.field?, Value.members, Except.map, bind,
      Except.bind]

theorem trim_quoted_object (ms : List (String × Value)) :
    Text.trim (Value.quoted (.object ms)) ≠ "" := by
  intro empty
  have brace : '\x7b' ∈ (Value.quoted (.object ms)).toList := by simp [Value.quoted]
  have kept := Text.mem_trim brace (by decide)
  rw [empty] at kept
  cases kept

theorem shownOf_of_given {ms : List (String × Value)} (given : (messageOf ms).isGiven = true) :
    shownOf ms = messageOf ms := by
  rw [shownOf, Value.orElse, if_pos given]

theorem shownOf_of_silent {ms : List (String × Value)} (silent : (messageOf ms).isGiven = false) :
    shownOf ms = .text (Value.quoted (.object ms)) := by
  rw [shownOf, Value.orElse, silent]
  rfl

/-- **A finding is what gives a text to show.** -/
theorem isFinding_iff {v : Value} :
    IsFinding v ↔ ∃ e s, finding v = .ok (e, s) ∧ (e = true → s ≠ "") := by
  simp only [finding_ok]
  constructor
  · rintro (⟨silent⟩ | ⟨text, shown⟩)
    · exact ⟨_, _, ⟨_, _, rfl, shownOf_of_silent silent, rfl, rfl⟩, fun _ => trim_quoted_object _⟩
    · rename_i ms s
      by_cases given : (messageOf ms).isGiven = true
      · exact ⟨_, _, ⟨_, _, rfl, (shownOf_of_given given).trans text, rfl, rfl⟩, shown⟩
      · have silent : (messageOf ms).isGiven = false := by simpa using given
        exact ⟨_, _, ⟨_, _, rfl, shownOf_of_silent silent, rfl, rfl⟩, fun _ => trim_quoted_object _⟩
  · rintro ⟨e, s, ⟨ms, t, rfl, text, rfl, rfl⟩, shown⟩
    by_cases given : (messageOf ms).isGiven = true
    · exact .told ((shownOf_of_given given).symm.trans text) shown
    · exact .silent (by simpa using given)

theorem findings_object (ms : List (String × Value)) :
    findings (.object ms) = (do
      let found ← (← (findingsIn ms).parts).mapM finding
      return ⟨(found.filter fun f => !f.1).map Prod.snd,
        (found.filter fun f => f.1).map Prod.snd⟩) := rfl

/-- What is told apart as errors among the findings. -/
theorem findings_ok {ms : List (String × Value)} {found : Findings}
    (h : findings (.object ms) = .ok found) :
    ∃ items, (findingsIn ms).parts = .ok items ∧ (∀ item ∈ items, ∃ r, finding item = .ok r) ∧
      ∀ s, s ∈ found.errors ↔ ∃ item ∈ items, finding item = .ok (true, s) := by
  rw [findings_object] at h
  cases parts : (findingsIn ms).parts with
  | error f => simp [parts, bind, Except.bind] at h
  | ok items =>
    cases all : items.mapM finding with
    | error f => simp [parts, all, bind, Except.bind] at h
    | ok rs =>
      simp only [parts, all, bind, Except.bind, pure, Except.pure, Except.ok.injEq] at h
      refine ⟨items, rfl, fun item mem => succeeds_mapM.1 ⟨rs, all⟩ item mem, fun s => ?_⟩
      rw [← mem_of_mapM all, ← h]
      simp

theorem reportsError_iff {ms : List (String × Value)} {found : Findings}
    (h : findings (.object ms) = .ok found) : ReportsError ms ↔ found.errors ≠ [] := by
  obtain ⟨items, parts, read, errors⟩ := findings_ok h
  constructor
  · rintro ⟨others, fs, same, mem, error⟩
    cases parts.symm.trans same
    obtain ⟨⟨e, s⟩, told⟩ := read _ mem
    obtain ⟨ms, t, same, -, e_eq, -⟩ := finding_ok.1 told
    cases same
    exact List.ne_nil_of_mem ((errors s).2 ⟨_, mem, by rw [told, e_eq, error]⟩)
  · intro some_left
    obtain ⟨s, mem⟩ := List.exists_mem_of_ne_nil _ some_left
    obtain ⟨item, there, told⟩ := (errors s).1 mem
    obtain ⟨fs, t, rfl, -, error, -⟩ := finding_ok.1 told
    exact ⟨items, fs, parts, there, error.symm⟩

/-- **All findings have the shape of one exactly if they are read and every error has a line to
show.** -/
theorem findings_shape_iff {ms : List (String × Value)} :
    (∃ items, (findingsIn ms).parts = .ok items ∧ ∀ item ∈ items, IsFinding item) ↔
      ∃ found, findings (.object ms) = .ok found ∧ ∀ s ∈ found.errors, s ≠ "" := by
  constructor
  · rintro ⟨items, parts, each⟩
    have read : Succeeds (items.mapM finding) := by
      refine succeeds_mapM.2 fun item mem => ?_
      obtain ⟨e, s, told, -⟩ := isFinding_iff.1 (each item mem)
      exact ⟨_, told⟩
    obtain ⟨rs, all⟩ := read
    have found := findings_object ms
    simp only [parts, all, bind, Except.bind] at found
    refine ⟨_, found, fun s mem => ?_⟩
    obtain ⟨others, same, -, errors⟩ := findings_ok found
    cases parts.symm.trans same
    obtain ⟨item, there, told⟩ := (errors s).1 mem
    obtain ⟨e, t, again, shown⟩ := isFinding_iff.1 (each item there)
    cases told.symm.trans again
    exact shown rfl
  · rintro ⟨found, read, shown⟩
    obtain ⟨items, parts, each, errors⟩ := findings_ok read
    refine ⟨items, parts, fun item mem => ?_⟩
    obtain ⟨⟨e, s⟩, told⟩ := each item mem
    refine isFinding_iff.2 ⟨e, s, told, ?_⟩
    rintro rfl
    exact shown s ((errors s).2 ⟨item, mem, told⟩)

/-! ## Contracts and syntax trees -/

theorem succeeds_contractOf {sourceFile : String} {m : String × Value} :
    Succeeds (contractOf sourceFile m) ↔ IsEntry m.2 := by
  by_cases object : m.2.IsObject
  · obtain ⟨ms, same⟩ := object
    have entry : IsEntry m.2 ↔ ((ofMember "evm" ms).orElse (.object [])).IsObject := by
      simp [IsEntry, same, Value.isObject_orElse]
    rw [entry, ← @Value.succeeds_field "methodIdentifiers"]
    simp only [contractOf, same, Value.field_object, bind_pure_comp, succeeds_bind, succeeds_map,
      Except.ok.injEq, exists_eq_left']
  · refine iff_of_false ?_ fun ⟨ms, same, _⟩ => object ⟨ms, same⟩
    simp [contractOf, Value.field_of_not_isObject object, succeeds_bind]

theorem succeeds_contracts {ms : List (String × Value)} :
    Succeeds (contracts (.object ms)) ↔
      ((Assoc.get? "contracts" ms).getD (.object [])).IsObjectOf (IsObjectOf IsEntry) := by
  have file {f : String × Value} :
      Succeeds (do (← f.2.members).mapM (contractOf f.1)) ↔ f.2.IsObjectOf IsEntry := by
    simp only [succeeds_bind, Value.members_ok, succeeds_mapM, succeeds_contractOf, IsObjectOf]
  simp only [contracts, Value.fieldD_object, bind_pure_comp, succeeds_bind, succeeds_map,
    succeeds_mapM, file, Value.members_ok, Except.ok.injEq, exists_eq_left', IsObjectOf]

theorem succeeds_treeOf {source : Value} : Succeeds (treeOf source) ↔ source.IsObject := by
  by_cases object : source.IsObject
  · refine iff_of_true ?_ object
    obtain ⟨ms, rfl⟩ := object
    exact ⟨_, rfl⟩
  · refine iff_of_false ?_ object
    simp [treeOf, Value.field_of_not_isObject object, succeeds_bind]

theorem succeeds_trees {ms : List (String × Value)} :
    Succeeds (trees (.object ms)) ↔
      ((Assoc.get? "sources" ms).getD (.object [])).IsObjectOf IsObject := by
  simp only [trees, Value.fieldD_object, bind_pure_comp, succeeds_bind, succeeds_map, succeeds_mapM,
    succeeds_treeOf, Value.members_ok, Except.ok.injEq, exists_eq_left', IsObjectOf]

end CompilerOutput

/-! ## Reading an answer -/

namespace Compilation

open CompilerOutput

/-- **Errors have a line each to show, unless one of them is empty.** -/
theorem shownErrors_eq (errors : List String) :
    shownErrors errors = if "" ∈ errors then .error .emptySequence
      else .ok (.diagnostics errors) := by
  have shown : (errors.all fun e => (Text.firstLine? e).isSome) = true ↔ "" ∉ errors := by
    have line (e : String) : (Text.firstLine? e).isSome = true ↔ e ≠ "" := by
      unfold Text.firstLine?
      split <;> simp_all
    simp only [List.all_eq_true, line]
    exact ⟨fun each mem => each "" mem rfl, fun none_empty e mem same => none_empty (same ▸ mem)⟩
  unfold shownErrors
  split
  · rename_i all
    rw [if_neg (shown.1 all)]
  · rename_i some_empty
    rw [if_pos (not_not.1 fun none_empty => some_empty (shown.2 none_empty))]

theorem succeeds_shownErrors {errors : List String} :
    Succeeds (shownErrors errors) ↔ ∀ e ∈ errors, e ≠ "" := by
  rw [shownErrors_eq]
  split
  · rename_i empty
    exact iff_of_false (not_succeeds_error _) fun each => each "" empty rfl
  · rename_i none_empty
    exact iff_of_true (succeeds_ok _) fun e mem same => none_empty (same ▸ mem)

theorem isObject_of_findings {output : Value} {found : Findings} (h : findings output = .ok found) :
    output.IsObject := by
  cases output with
  | object ms => exact ⟨ms, rfl⟩
  | _ => cases h

/-- **An answer is read to the end exactly if it has the shape of one.** -/
theorem succeeds_withOutput (c : Compilation) (output : Value) :
    Succeeds (c.withOutput output) ↔ ∃ ms, output = .object ms ∧ HasShape ms := by
  simp only [withOutput, succeeds_bind, bind_pure_comp]
  constructor
  · rintro ⟨found, read, rest⟩
    obtain ⟨ms, rfl⟩ := isObject_of_findings read
    have reports := reportsError_iff read
    split at rest
    · rename_i none_found
      rw [List.isEmpty_iff] at none_found
      simp only [succeeds_bind, succeeds_map] at rest
      obtain ⟨contracts, entries, trees⟩ := rest
      exact ⟨ms, rfl, findings_shape_iff.2 ⟨found, read, by simp [none_found]⟩,
        fun _ => succeeds_contracts.1 ⟨contracts, entries⟩, fun _ => succeeds_trees.1 trees⟩
    · rename_i some_found
      rw [List.isEmpty_iff] at some_found
      simp only [succeeds_map] at rest
      exact ⟨ms, rfl, findings_shape_iff.2 ⟨found, read, succeeds_shownErrors.1 rest⟩,
        fun silent => absurd (reports.2 some_found) silent,
        fun silent => absurd (reports.2 some_found) silent⟩
  · rintro ⟨ms, rfl, shape⟩
    obtain ⟨found, read, shown⟩ := findings_shape_iff.1 shape.findings
    have reports := reportsError_iff read
    refine ⟨found, read, ?_⟩
    split
    · rename_i none_found
      rw [List.isEmpty_iff] at none_found
      have silent : ¬ReportsError ms := fun error => reports.1 error none_found
      simp only [succeeds_bind, succeeds_map]
      obtain ⟨contracts, entries⟩ := succeeds_contracts.2 (shape.contracts silent)
      exact ⟨contracts, entries, succeeds_trees.2 (shape.trees silent)⟩
    · simp only [succeeds_map]
      exact succeeds_shownErrors.2 shown

end Compilation

/-! ## Faults of other documents -/

/-- The faults that a document without the shape of an answer means: a member asked of what is no
object, the items of what has none, or the first line of an empty text. -/
def Fault.IsOfShape (f : Fault) : Prop := f = .noSuchField ∨ f = .wrongType ∨ f = .emptySequence

namespace Value

theorem failsOnly_members (v : Value) : FailsOnly v.members Fault.IsOfShape := by
  cases v with
  | object ms => exact .ok ms
  | _ => exact .error (.inl rfl)

theorem failsOnly_fieldD (name : String) (v d : Value) :
    FailsOnly (v.fieldD name d) Fault.IsOfShape :=
  (v.failsOnly_members.map _).map _

theorem failsOnly_parts (v : Value) : FailsOnly v.parts Fault.IsOfShape := by
  cases v with
  | list _ | object _ | text _ => exact .ok _
  | _ => exact .error (.inr (.inl rfl))

theorem failsOnly_asText (v : Value) : FailsOnly v.asText Fault.IsOfShape := by
  cases v with
  | text s => exact .ok s
  | _ => exact .error (.inl rfl)

end Value

namespace CompilerOutput

theorem failsOnly_finding (v : Value) : FailsOnly (finding v) Fault.IsOfShape := by
  refine .bind (v.failsOnly_fieldD _ _) fun _ => .bind (v.failsOnly_fieldD _ _) fun _ => ?_
  exact .bind (v.failsOnly_fieldD _ _) fun _ => .bind (Value.failsOnly_asText _) fun _ => .pure _

theorem failsOnly_findings (output : Value) : FailsOnly (findings output) Fault.IsOfShape := by
  refine .bind (output.failsOnly_fieldD _ _) fun v => .bind v.failsOnly_parts fun items => ?_
  exact .bind (.mapM failsOnly_finding items) fun _ => .pure _

theorem failsOnly_contractOf (sourceFile : String) (m : String × Value) :
    FailsOnly (contractOf sourceFile m) Fault.IsOfShape := by
  refine .bind (Value.failsOnly_fieldD _ _ _) fun _ =>
    .bind (Value.failsOnly_fieldD _ _ _) fun _ => ?_
  exact .bind (Value.failsOnly_fieldD _ _ _) fun _ => .pure _

theorem failsOnly_contracts (output : Value) : FailsOnly (contracts output) Fault.IsOfShape := by
  refine .bind (output.failsOnly_fieldD _ _) fun v => .bind v.failsOnly_members fun files => ?_
  refine .bind (.mapM (fun file => ?_) files) fun _ => .pure _
  exact .bind file.2.failsOnly_members (.mapM (failsOnly_contractOf file.1))

theorem failsOnly_trees (output : Value) : FailsOnly (trees output) Fault.IsOfShape := by
  refine .bind (output.failsOnly_fieldD _ _) fun v => .bind v.failsOnly_members fun files => ?_
  refine .bind (.mapM (fun file => ?_) files) fun _ => .pure _
  refine .bind ?_ fun _ => .pure _
  exact .bind (Value.failsOnly_fieldD _ _ _) fun _ => .bind (Value.failsOnly_fieldD _ _ _) fun _ =>
    .pure _

theorem failsOnly_shownErrors (errors : List String) :
    FailsOnly (shownErrors errors) Fault.IsOfShape := by
  unfold shownErrors
  split
  · exact .ok _
  · exact .error (.inr (.inr rfl))

end CompilerOutput

open CompilerOutput in
/-- **No other fault stops the reading of an answer.** -/
theorem Compilation.failsOnly_withOutput (c : Compilation) (output : Value) :
    FailsOnly (c.withOutput output) Fault.IsOfShape := by
  refine .bind (failsOnly_findings output) fun found => ?_
  split
  · exact .bind (failsOnly_contracts output) fun _ => .bind (failsOnly_trees output) fun _ =>
      .pure _
  · exact .bind (failsOnly_shownErrors _) fun _ => .pure _

end SelectorCatalog
