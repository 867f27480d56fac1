import SelectorCatalog.Proofs.Compiler.Returned
import SelectorCatalog.Proofs.Json.DistinctNames

/-!
# What the compiler found, and what it compiled

An answer that reports errors makes the contract fail with the texts of exactly these errors,
trimmed and in order, and all other texts become warnings. An answer without errors gives its
contracts in order and the syntax trees of its sources; if it has no contract, the contract fails
for that (`Contract.compile_reports`). The one exception is an error whose text is blank: it has no
line to show, and compiling ends with a fault (`Contract.compile_stopped_by_blank`).
-/

set_option autoImplicit false

namespace SelectorCatalog

namespace CompilerOutput

open Value (ofMember)

/-! ## The content of an answer -/

/-- An entry of an answer's findings is an error or not, and tells a text: its formatted message,
else its plain message, and the entry itself if neither says anything. -/
inductive Tells : Value → Bool × String → Prop
  | formatted {ms : List (String × Value)} {s : String}
      (text : ofMember "formattedMessage" ms = .text s)
      (said : s ≠ "") : Tells (.object ms) (isError ms, s)
  | plain {ms : List (String × Value)} {s : String}
      (silent : (ofMember "formattedMessage" ms).isGiven = false)
        (text : ofMember "message" ms = .text s)
      (said : s ≠ "") : Tells (.object ms) (isError ms, s)
  | neither {ms : List (String × Value)} (silent : (ofMember "formattedMessage" ms).isGiven = false)
      (wordless : (ofMember "message" ms).isGiven = false) :
      Tells (.object ms) (isError ms, Value.quoted (.object ms))

/-- The trimmed texts of the errors among what was told, or of the other entries. -/
def trimmedTexts (errors : Bool) (told : List (Bool × String)) : List String :=
  (told.filter fun t => t.1 == errors).map fun t => Text.trim t.2

/-- The machine code members of a contract's entry; none if the entry tells nothing of the machine
code. -/
def machineMembers (ms : List (String × Value)) : List (String × Value) :=
  match ofMember "evm" ms with
  | .object inner => inner
  | _ => []

/-- The contracts of sources, source by source. -/
def contractsIn (files : List (String × List (String × List (String × Value)))) :
    List CompiledContract :=
  files.flatMap fun file => file.2.map fun m =>
    ⟨m.1, file.1, (ofMember "abi" m.2).orElse (.list []),
      (ofMember "methodIdentifiers" (machineMembers m.2)).orElse (.object [])⟩

/-- The syntax tree of a source, under the member of newer releases or else of older ones. -/
def treeIn? (ms : List (String × Value)) : Option Value :=
  [ofMember "ast" ms, ofMember "legacyAST" ms].find? Value.isGiven

/-- The syntax trees of sources, of those that have one. -/
def treesIn (units : List (String × List (String × Value))) : List (String × Value) :=
  units.filterMap fun unit => (treeIn? unit.2).map (unit.1, ·)

/-- The contracts and the sources of an answer are well-formed objects. -/
structure Holds (ms : List (String × Value))
    (files : List (String × List (String × List (String × Value))))
    (units : List (String × List (String × Value))) : Prop where
  contracts : (Assoc.get? "contracts" ms).getD (.object []) =
    .object (files.map fun file => (file.1, .object (file.2.map fun m => (m.1, .object m.2))))
  machine : ∀ file ∈ files, ∀ m ∈ file.2, (ofMember "evm" m.2).isGiven = true →
    (ofMember "evm" m.2).IsObject
  sources : (Assoc.get? "sources" ms).getD (.object []) =
    .object (units.map fun unit => (unit.1, .object unit.2))
  distinct : (units.map Prod.fst).Nodup

/-! ## Reading the content -/

theorem isGiven_of_text {v : Value} {s : String} (text : v = .text s) (said : s ≠ "") :
    v.isGiven = true := by
  subst text
  simpa [Value.isGiven] using said

/-- **What an entry tells is what is shown of it.** -/
theorem Tells.finding {v : Value} {t : Bool × String} (h : Tells v t) :
    CompilerOutput.finding v = .ok (t.1, Text.trim t.2) := by
  refine finding_ok.2 ?_
  cases h with
  | @formatted ms s text said =>
    have first : messageOf ms = .text s := by rw [messageOf, Value.orElse,
      if_pos (isGiven_of_text text said), text]
    exact ⟨ms, s, rfl, (shownOf_of_given (isGiven_of_text first said)).trans first, rfl, rfl⟩
  | @plain ms s silent text said =>
    have second : messageOf ms = .text s := by rw [messageOf, Value.orElse, silent, text]; rfl
    exact ⟨ms, s, rfl, (shownOf_of_given (isGiven_of_text second said)).trans second, rfl, rfl⟩
  | @neither ms silent wordless =>
    have none_given : (messageOf ms).isGiven = false := by
      rw [messageOf, Value.orElse, silent]
      exact wordless
    exact ⟨ms, _, rfl, shownOf_of_silent none_given, rfl, rfl⟩

theorem findings_told {ms : List (String × Value)} {items : List Value}
    {told : List (Bool × String)} (listed : findingsIn ms = .list items)
    (each : List.Forall₂ Tells items told) :
    findings (.object ms) = .ok ⟨trimmedTexts false told, trimmedTexts true told⟩ := by
  have read : items.mapM finding = .ok (told.map fun t => (t.1, Text.trim t.2)) := by
    refine mapM_eq_ok.2 ?_
    rw [List.forall₂_map_right_iff]
    exact each.imp fun _ _ h => h.finding
  rw [findings_object, listed]
  simp only [Value.parts, ok_bind, read]
  simp [trimmedTexts, List.filter_map, Function.comp_def, pure, Except.pure]

theorem orElse_machine {ms : List (String × Value)}
    (object : (ofMember "evm" ms).isGiven = true → (ofMember "evm" ms).IsObject) :
    (ofMember "evm" ms).orElse (.object []) = .object (machineMembers ms) := by
  unfold Value.orElse machineMembers
  split
  · rename_i given
    obtain ⟨inner, same⟩ := object given
    rw [same]
  · rename_i silent
    split
    · rename_i inner same
      rw [same] at silent
      simpa [Value.isGiven] using silent
    · rfl

section

variable {ms : List (String × Value)}
  {files : List (String × List (String × List (String × Value)))}
  {units : List (String × List (String × Value))}

/-- **One contract is read for every name in every source**, in order. -/
theorem contracts_of_holds (h : Holds ms files units) :
    contracts (.object ms) = .ok (contractsIn files) := by
  have read : (files.map fun file =>
      (file.1, Value.object (file.2.map fun m => (m.1, .object m.2)))).mapM
      (fun file => do (← file.2.members).mapM (contractOf file.1)) =
      .ok (files.map fun file => file.2.map fun m =>
        ⟨m.1, file.1, (ofMember "abi" m.2).orElse (.list []),
          (ofMember "methodIdentifiers" (machineMembers m.2)).orElse (.object [])⟩) := by
    rw [mapM_eq_ok, List.forall₂_map_left_iff, List.forall₂_map_right_iff, List.forall₂_same]
    intro file here
    simp only [Value.members, ok_bind]
    rw [mapM_eq_ok, List.forall₂_map_left_iff, List.forall₂_map_right_iff, List.forall₂_same]
    intro m there
    simp only [contractOf, Value.field_object, ok_bind,
      orElse_machine (h.machine file here m there)]
    rfl
  simp only [contracts, Value.fieldD_object, ok_bind, Value.members_ok.2 h.contracts, read]
  rfl

theorem filter_trees (units : List (String × List (String × Value))) :
    (units.map fun unit =>
      (unit.1, (ofMember "ast" unit.2).orElse (ofMember "legacyAST" unit.2))).filter
      (fun t => t.2.isGiven) = treesIn units := by
  induction units with
  | nil => rfl
  | cons unit rest ih =>
    rw [List.map_cons, List.filter_cons, ih, treesIn, treesIn, List.filterMap_cons, treeIn?]
    cases current : (ofMember "ast" unit.2).isGiven with
    | true => simp [Value.orElse, current]
    | false =>
      cases older : (ofMember "legacyAST" unit.2).isGiven <;> simp [Value.orElse, current, older]

/-- **One syntax tree is read for every source that has one.** -/
theorem trees_of_holds (h : Holds ms files units) :
    ∃ found, trees (.object ms) = .ok found ∧ found.entries = treesIn units := by
  have read : (units.map fun unit => (unit.1, Value.object unit.2)).mapM
      (fun file => return (file.1, ← treeOf file.2)) =
      (.ok (units.map fun unit =>
        (unit.1, (ofMember "ast" unit.2).orElse (ofMember "legacyAST" unit.2))) :
        Except Fault (List (String × Value))) := by
    rw [mapM_eq_ok, List.forall₂_map_left_iff, List.forall₂_map_right_iff, List.forall₂_same]
    intro unit here
    rfl
  refine ⟨.ofList (treesIn units), ?_, ?_⟩
  · simp only [trees, Value.fieldD_object, ok_bind, Value.members_ok.2 h.sources, read]
    rw [← filter_trees]
    rfl
  · have distinct : (Assoc.names (treesIn units)).Nodup := by
      refine Assoc.nodup_filterMap (fun unit t picked => ?_) h.distinct
      obtain ⟨tree, -, rfl⟩ := Option.map_eq_some_iff.1 picked
      rfl
    exact OrderedMap.entries_foldl_insert (treesIn units) .empty distinct

end

end CompilerOutput

namespace Contract

open CompilerOutput

variable {σ : Type} {tools : Toolchain} {run : Runner σ} {c : Contract} {s : σ}
  {ms : List (String × Value)}

theorem compile_of_answer? {document : Value} (h : c.answer? tools run s = some document) :
    ∃ attempts, (c.compile tools run s).1 =
      { c.compilation with attempts }.withOutput document := by
  unfold answer? at h
  split at h
  · cases h
  · rename_i binary found
    exact ⟨(runWithRetries run ⟨binary, c.compilerInput, tools.budget⟩ tools.retries.crashes
      tools.retries.timeouts s).attempts, by simp only [compile, found, ok_of_toOption h,
        Compilation.ofAttempt]⟩

/-- **Diagnostics are classified and preserved**, unless the text of an error is blank. -/
theorem compile_reports (answered : c.answer? tools run s = some (.object ms)) {items : List Value}
    {told : List (Bool × String)} (listed : findingsIn ms = .list items)
    (each : List.Forall₂ Tells items told) :
    let result := (c.compile tools run s).1
    let errors := trimmedTexts true told
    (errors ≠ [] → "" ∉ errors → ∃ r, result = .ok r ∧ r.failure = some (.diagnostics errors) ∧
      r.warnings = trimmedTexts false told ∧ r.contracts = [] ∧ r.trees = .empty) ∧
    ("" ∈ errors → result = .error .emptySequence) ∧
    (errors = [] → ∀ files units, Holds ms files units → ∃ r, result = .ok r ∧
      r.warnings = trimmedTexts false told ∧ r.contracts = contractsIn files ∧
      r.trees.entries = treesIn units ∧
      r.failure = if contractsIn files = [] then some .noContracts else none) := by
  intro result errors
  obtain ⟨attempts, compiled⟩ := compile_of_answer? answered
  have read : result = (do
      if errors.isEmpty then
        let contracts ← CompilerOutput.contracts (.object ms)
        let trees ← CompilerOutput.trees (.object ms)
        let failure := if contracts.isEmpty then some .noContracts else none
        let warnings := trimmedTexts false told
        return { c.compilation with attempts, warnings, contracts, trees, failure }
      else
        let failure ← shownErrors errors
        let warnings := trimmedTexts false told
        return { c.compilation with attempts, warnings, failure := some failure }) := by
    simp only [result, compiled, Compilation.withOutput, findings_told listed each, ok_bind]
    rfl
  refine ⟨fun some_error shown => ?_, fun blank => ?_, fun silent files units holds => ?_⟩
  · rw [read, if_neg (by simpa using some_error), Compilation.shownErrors_eq, if_neg shown]
    exact ⟨_, rfl, rfl, rfl, rfl, rfl⟩
  · rw [read, if_neg (by simpa using List.ne_nil_of_mem blank), Compilation.shownErrors_eq,
      if_pos blank]
    rfl
  · obtain ⟨trees, indexed, entries⟩ := trees_of_holds holds
    rw [read, if_pos (by simpa using silent), contracts_of_holds holds, indexed]
    refine ⟨_, rfl, rfl, rfl, entries, ?_⟩
    simp

/-! ## Errors among warnings, and an error without a text -/

/-- A list of entries whose members are texts. -/
def textEntries (entries : List (List (String × String))) : List Value :=
  entries.map fun entry => .object (entry.map fun m => (m.1, .text m.2))

/-- What the compiler writes if its answer only lists entries. -/
def onlyFindings (entries : List (List (String × String))) : String :=
  Json.write (.object [("errors", .list (textEntries entries))])

theorem answer?_onlyFindings (c : Contract) (entries : List (List (String × String)))
    (distinct : ∀ entry ∈ entries, (entry.map Prod.fst).Nodup) :
    c.answer? oneBinary (writesOnly (onlyFindings entries)) () =
      some (.object [("errors", .list (textEntries entries))]) := by
  have plain : Json.Plain (.object [("errors", .list (textEntries entries))]) := by
    refine .single (.list fun v mem => ?_)
    obtain ⟨entry, there, rfl⟩ := List.mem_map.1 mem
    refine .object (by simpa [Assoc.names, Function.comp_def] using distinct entry there)
      fun m mem => ?_
    obtain ⟨t, -, rfl⟩ := List.mem_map.1 mem
    exact .text t.2
  have answered (i : Invocation) :
      (writesOnly (onlyFindings entries) i ()).1.answer i =
        .ok (.object [("errors", .list (textEntries entries))]) :=
    decodeOutput_write plain
  exact congrArg Except.toOption (runWithRetries_of_answer (answered _) _ _)

/-- Two errors and a warning between them. -/
def twoErrors : List (List (String × String)) :=
  [[("severity", "error"), ("formattedMessage", " TypeError\n --> A.sol\n")],
   [("severity", "warning"), ("message", "unused")],
   [("severity", "error"), ("formattedMessage", ""), ("message", "stack too deep")]]

/-- Both errors are the diagnostics, trimmed and in order, and the warning is a warning. -/
theorem compile_reports_twoErrors :
    ∃ r, ((default : Contract).compile oneBinary (writesOnly (onlyFindings twoErrors)) ()).1 =
      .ok r ∧
      r.failure = some (.diagnostics ["TypeError\n --> A.sol", "stack too deep"]) ∧
        r.warnings = ["unused"] ∧
      r.contracts = [] := by
  have told : List.Forall₂ Tells (textEntries twoErrors)
      [(true, " TypeError\n --> A.sol\n"), (false, "unused"), (true, "stack too deep")] := by
    refine .cons ?_ (.cons ?_ (.cons ?_ .nil))
    · exact .formatted rfl (by decide)
    · exact .plain rfl rfl (by decide)
    · exact .plain rfl rfl (by decide)
  have reports := compile_reports (answer?_onlyFindings default twoErrors (by decide)) rfl told
  obtain ⟨r, done, failure, warnings, contracts, -⟩ := reports.1 (by decide) (by decide)
  exact ⟨r, done, failure, warnings, contracts⟩

/-- One error, whose text is a blank. -/
def blankError :
    List (List (String × String)) := [[("severity", "error"), ("formattedMessage", " ")]]

/-- **An error whose text is blank stops the run.** The answer is an object whose one entry has a
severity and a message, and compiling ends with a fault in place of a result. -/
theorem compile_stopped_by_blank :
    (default : Contract).answer? oneBinary (writesOnly (onlyFindings blankError)) () =
      some (.object [("errors", .list (textEntries blankError))]) ∧
    ((default : Contract).compile oneBinary (writesOnly (onlyFindings blankError)) ()).1 =
      .error .emptySequence := by
  have answered := answer?_onlyFindings default blankError (by decide)
  obtain ⟨attempts, compiled⟩ := compile_of_answer? answered
  exact ⟨answered, compiled.trans rfl⟩

end Contract

end SelectorCatalog
