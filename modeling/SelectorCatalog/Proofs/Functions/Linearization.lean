import SelectorCatalog.Functions.SyntaxIndex
import SelectorCatalog.Proofs.FirstItem
import SelectorCatalog.Proofs.Json.Shape

/-!
# Members along a linearization

The members of a contract and its bases form one list, the most derived contract first
(`linearization`). The index of syntax trees has three tables, and each of them holds for every key
what the first member of this list under the key declares (`SyntaxIndex.ofContract_indexes`). One
more member keeps this (`addMember_indexes`), so all members of a base do, and so do all bases.
-/

set_option autoImplicit false

namespace SelectorCatalog

/-! ## Members -/

/-- A member of a contract in a syntax tree, with the contract and the source that it stands in. -/
structure PlacedMember where
  node : Value
  contract : Value
  sourceFile : String

/-- Two values are the same name. -/
def Value.SameKey (v w : Value) : Prop := ∃ k, v.key = .ok k ∧ w.key = .ok k

namespace PlacedMember

/-- The member is a function with a name of its own and some number of parameters, and not a
constructor. -/
structure IsFunction (m : PlacedMember) (arity : Nat) : Prop where
  nodeType : m.node.field "nodeType" = .ok (.text "FunctionDefinition")
  plain : MemberDeclaration.isPlainFunction m.node = .ok true
  parameters : MemberDeclaration.parameterCount m.node = .ok arity

/-- The member is a state variable. -/
structure IsStateVariable (m : PlacedMember) : Prop where
  nodeType : m.node.field "nodeType" = .ok (.text "VariableDeclaration")
  stored : ∃ v, m.node.field "stateVariable" = .ok v ∧ v.isGiven = true

/-- The member is a public or external function or state variable, and `d` is what it declares. -/
structure Declares (m : PlacedMember) (d : MemberDeclaration) : Prop where
  visibility : m.node.field "visibility" = .ok (.text d.visibility.label)
  sort : (∃ arity, d.arity = some arity ∧ m.IsFunction arity) ∨ d.arity = none ∧ m.IsStateVariable
  name : m.node.required "name" = .ok d.name
  range : m.node.field "src" = .ok d.range
  contractName : m.contract.required "name" = .ok d.contractName
  sourceFile : d.sourceFile = m.sourceFile

/-- The member can be called from outside, and states a selector. -/
def States (selector : String) (m : PlacedMember) : Prop :=
  (∃ d, m.Declares d) ∧ ∃ s, m.node.field "functionSelector" = .ok (.text s) ∧ s.isEmpty = false ∧
    "0x" ++ Text.lower s = selector

/-- The member can be called from outside by a name; `arity` is the number of parameters of a
function, and `none` for a state variable. -/
def Named (name : Value) (arity : Option Nat) (m : PlacedMember) : Prop :=
  ∃ d, m.Declares d ∧ d.name.SameKey name ∧ d.arity = arity

end PlacedMember

/-- The members of the contract of a number, none if the trees do not have it. -/
def NodeTable.membersOf (table : NodeTable) (base : Value) : Except Fault (List PlacedMember) := do
  match table.get? (← base.key) with
  | none => return []
  | some (node, file) =>
    return (← (← node.fieldD "nodes" (.list [])).parts).map fun member => ⟨member, node, file⟩

/-- The members of a contract and its bases in the order of the linearization, the most derived
contract first and the members of each as they are declared. -/
def linearization (trees : OrderedMap Value) (name file : String) :
    Except Fault (List PlacedMember) := do
  let table ← NodeTable.ofTrees trees
  match ← table.named name file none with
  | none => return []
  | some primary =>
    let bases ← primary.fieldD "linearizedBaseContracts" (.list [← primary.field "id"])
    return (← (← bases.parts).mapM table.membersOf).flatten

/-! ## What a member declares -/

theorem Value.isText_eq_true {s : String} {v : Value} : v.isText s = true ↔ v = .text s := by
  cases v <;> simp [isText]

theorem Value.asText_eq_ok {v : Value} {s : String} : v.asText = .ok s ↔ v = .text s := by
  cases v <;> simp [asText]

theorem calledFromOutside?_eq_some {v : Value} {visibility : Visibility} :
    calledFromOutside? v = some visibility ↔ v = .text visibility.label := by
  constructor
  · intro h
    cases v with
    | text s =>
      have listed : Visibility.all.find? (fun v => v.label == s) = some visibility := h
      rw [eq_of_beq (List.find?_some listed :)]
    | _ => cases h
  · rintro rfl
    exact Visibility.ofLabel?_label visibility

section

variable {m : PlacedMember} {contractName : Value} {d : MemberDeclaration}

theorem declares_of_ofNode? (named : m.contract.required "name" = .ok contractName) :
    Yields (MemberDeclaration.ofNode? m.node contractName m.sourceFile) fun d? =>
      ∀ d, d? = some d → m.Declares d := by
  have nothing : Yields (pure none : Except Fault (Option MemberDeclaration)) fun d? =>
      ∀ d, d? = some d → m.Declares d := .pure (by simp)
  unfold MemberDeclaration.ofNode?
  refine .bind .self fun type typed => .bind .self fun v visible => ?_
  split
  · exact nothing
  rename_i visibility outside
  obtain rfl := calledFromOutside?_eq_some.1 outside
  have declared {arity : Option Nat}
      (sort : (∃ k, arity = some k ∧ m.IsFunction k) ∨ arity = none ∧ m.IsStateVariable) :
      Yields (do
        let name ← m.node.required "name"
        let range ← m.node.field "src"
        return some (⟨name, visibility, contractName, m.sourceFile, range,
          arity⟩ : MemberDeclaration))
        fun d? => ∀ d, d? = some d → m.Declares d := by
    refine .bind .self fun name named' => .bind .self fun range ranged => .pure ?_
    rintro d ⟨⟩
    exact ⟨visible, sort, named', ranged, named, rfl⟩
  split
  · rename_i isFunction
    obtain rfl := Value.isText_eq_true.1 isFunction
    refine .bind .self fun plain isPlain => ?_
    cases plain with
    | false => exact nothing
    | true => exact .bind .self fun k counted => declared (.inl ⟨k, rfl, typed, isPlain, counted⟩)
  · refine .bind .self fun stored given => ?_
    split
    · rename_i isVariable
      obtain ⟨isText, isGiven⟩ := Bool.and_eq_true_iff.1 isVariable
      obtain rfl := Value.isText_eq_true.1 isText
      exact declared (.inr ⟨rfl, typed, stored, given, isGiven⟩)
    · exact nothing

theorem PlacedMember.Declares.ofNode? (h : m.Declares d) :
    MemberDeclaration.ofNode? m.node d.contractName m.sourceFile = .ok (some d) := by
  have outside := calledFromOutside?_eq_some.2 (rfl : Value.text d.visibility.label = _)
  unfold MemberDeclaration.ofNode?
  rcases h.sort with ⟨k, arity, isFunction⟩ | ⟨arity, nodeType, stored, given, isGiven⟩
  · simp only [isFunction.nodeType, h.visibility, ok_bind, outside, Value.isText, isFunction.plain,
      isFunction.parameters, h.name, h.range, ← arity, ← h.sourceFile]
    rfl
  · simp only [nodeType, h.visibility, ok_bind, outside, Value.isText, given, isGiven, h.name,
      h.range, ← arity, ← h.sourceFile]
    rfl

/-- **A declaration is found exactly in a member that can be called from outside.** -/
theorem ofNode?_eq_some (named : m.contract.required "name" = .ok contractName) :
    MemberDeclaration.ofNode? m.node contractName m.sourceFile = .ok (some d) ↔ m.Declares d := by
  constructor
  · exact fun found => declares_of_ofNode? named _ found d rfl
  · intro h
    cases named.symm.trans h.contractName
    exact h.ofNode?

theorem PlacedMember.Declares.unique {e : MemberDeclaration} (h : m.Declares d) (g : m.Declares e) :
    d = e :=
  Option.some.inj (Except.ok.inj (h.ofNode?.symm.trans ((ofNode?_eq_some h.contractName).2 g)))

theorem PlacedMember.Declares.states_iff (h : m.Declares d) {v : Value}
    (stated : m.node.field "functionSelector" = .ok v) {selector : String} :
    m.States selector ↔ v.isGiven = true ∧ ∃ s, v = .text s ∧ "0x" ++ Text.lower s = selector := by
  constructor
  · rintro ⟨-, s, text, some_digits, same⟩
    cases stated.symm.trans text
    exact ⟨by simp [Value.isGiven, some_digits], s, rfl, same⟩
  · rintro ⟨given, s, rfl, same⟩
    exact ⟨⟨d, h⟩, s, stated, by simpa [Value.isGiven] using given, same⟩

/-- A member states one selector at most. -/
theorem PlacedMember.States.unique {s t : String} (h : m.States s) (g : m.States t) : s = t := by
  obtain ⟨-, a, here, -, rfl⟩ := h
  obtain ⟨-, b, there, -, rfl⟩ := g
  cases here.symm.trans there
  rfl

/-- A member has only the name that it declares. -/
theorem PlacedMember.Declares.named_iff (h : m.Declares d) {key other : ValueKey}
    (known : d.name.key = .ok key) {name : Value} (asked : name.key = .ok other)
    {arity : Option Nat} :
    m.Named name arity ↔ key = other ∧ d.arity = arity := by
  constructor
  · rintro ⟨e, declares, ⟨k, here, there⟩, rfl⟩
    cases h.unique declares
    exact ⟨Except.ok.inj (known.symm.trans (here.trans (there.symm.trans asked))), rfl⟩
  · rintro ⟨rfl, rfl⟩
    exact ⟨d, h, ⟨key, known, asked⟩, rfl⟩

end

/-! ## First declarations -/

/-- What the first member with a property declares; nothing if no member has it. -/
def FirstDeclares (P : PlacedMember → Prop) (members : List PlacedMember) :
    Option MemberDeclaration → Prop
  | some d => ∃ m, IsFirst P members m ∧ m.Declares d
  | none => ∀ m ∈ members, ¬P m

namespace FirstDeclares

variable {P : PlacedMember → Prop} {members : List PlacedMember} {found : Option MemberDeclaration}
  {m : PlacedMember}

theorem nil (P : PlacedMember → Prop) : FirstDeclares P [] none := by simp [FirstDeclares]

/-- A member without the property changes nothing. -/
theorem skip (h : FirstDeclares P members found) (other : ¬P m) :
    FirstDeclares P (members ++ [m]) found := by
  cases found with
  | none => exact List.forall_mem_append.2 ⟨h, by simpa using other⟩
  | some d =>
    obtain ⟨first, isFirst, declares⟩ := h
    exact ⟨first, isFirst.append _, declares⟩

/-- A member with the property counts if there was none before. -/
theorem add (h : FirstDeclares P members found) (holds : P m) {d : MemberDeclaration}
    (declares : m.Declares d) :
    FirstDeclares P (members ++ [m]) (found.or (some d)) := by
  cases found with
  | none => exact ⟨m, .last holds h, declares⟩
  | some e =>
    obtain ⟨first, isFirst, declared⟩ := h
    exact ⟨first, isFirst.append _, declared⟩

end FirstDeclares

/-- What is added under a key is found there if nothing was. -/
theorem SyntaxIndex.first?_addFirst {κ α : Type} [DecidableEq κ] (key other : κ) (a : α)
    (entries : List (κ × α)) :
    first? other (addFirst key a entries) =
      if key = other then (first? other entries).or (some a) else first? other entries := by
  unfold addFirst first?
  by_cases same : key = other
  · subst same
    cases found : entries.find? fun e => decide (e.1 = key) with
    | none =>
      have absent : (entries.any fun e => decide (e.1 = key)) = false :=
        List.any_eq_false.2 (List.find?_eq_none.1 found)
      simp [absent, List.find?_append, found]
    | some e =>
      have taken : (entries.any fun e => decide (e.1 = key)) = true :=
        List.any_eq_true.2 ⟨e, List.mem_of_find?_eq_some found, (List.find?_some found :)⟩
      simp [taken, found]
  · rw [if_neg same]
    split
    · rfl
    · simp [List.find?_append, same]

theorem FirstDeclares.addFirst {P : PlacedMember → Prop} {members : List PlacedMember}
    {m : PlacedMember} {κ : Type} [DecidableEq κ] {entries : List (κ × MemberDeclaration)}
    {key other : κ} (h : FirstDeclares P members (SyntaxIndex.first? other entries))
    {d : MemberDeclaration} (declares : m.Declares d) (holds : P m ↔ key = other) :
    FirstDeclares P (members ++ [m])
      (SyntaxIndex.first? other (SyntaxIndex.addFirst key d entries)) := by
  rw [SyntaxIndex.first?_addFirst]
  split
  · rename_i same
    exact h.add (holds.2 same) declares
  · rename_i differs
    exact h.skip (mt holds.1 differs)

/-! ## The index -/

/-- Every table of the index holds what the first member under a key declares. -/
structure SyntaxIndex.Indexes (index : SyntaxIndex) (members : List PlacedMember) : Prop where
  bySelector : ∀ s, FirstDeclares (PlacedMember.States s) members (first? s index.bySelector)
  bySignature : ∀ (name : Value) key arity, name.key = .ok key →
    FirstDeclares (PlacedMember.Named name (some arity)) members
      (first? (key, arity) index.bySignature)
  getters : ∀ (name : Value) key, name.key = .ok key →
    FirstDeclares (PlacedMember.Named name none) members (first? key index.getters)

namespace SyntaxIndex

variable {index : SyntaxIndex} {members : List PlacedMember} {m : PlacedMember}
  {d : MemberDeclaration}

theorem indexes_empty (kind : Value) : Indexes { primaryKind := kind } [] where
  bySelector _ := .nil _
  bySignature _ _ _ _ := .nil _
  getters _ _ _ := .nil _

/-- A member that cannot be called from outside is not indexed. -/
theorem Indexes.skip (h : index.Indexes members) (hidden : ∀ d, ¬m.Declares d) :
    index.Indexes (members ++ [m]) where
  bySelector s := (h.bySelector s).skip fun states => states.1.elim hidden
  bySignature name key arity known := (h.bySignature name key arity known).skip
    fun named => named.elim fun d is => hidden d is.1
  getters name key known := (h.getters name key known).skip fun named =>
    named.elim fun d is => hidden d is.1

theorem addMember_indexes (h : index.Indexes members) :
    Yields (addMember (m.contract.required "name") m.sourceFile index m.node) fun next =>
      next.Indexes (members ++ [m]) := by
  unfold addMember
  refine .bind .self fun contractName named => .bind .self fun d? found => ?_
  cases d? with
  | none =>
    refine .pure (h.skip fun d declares => ?_)
    cases found.symm.trans ((ofNode?_eq_some named).2 declares)
  | some d =>
    have declares := (ofNode?_eq_some named).1 found
    dsimp only
    refine .bind .self fun selector stated => ?_
    -- However the step goes on from the table of selectors, the tables of names are completed then.
    have selected {next : List (String × MemberDeclaration) → Except Fault SyntaxIndex}
        (rest : ∀ table,
          (∀ s, FirstDeclares (PlacedMember.States s) (members ++ [m]) (first? s table)) →
          Yields (next table) fun next => next.Indexes (members ++ [m])) :
        Yields (if selector.isGiven then do
            let s ← selector.asText
            let table ← pure (SyntaxIndex.addFirst ("0x" ++ Text.lower s) d index.bySelector)
            next table
          else do
            let table ← pure index.bySelector
            next table) fun next => next.Indexes (members ++ [m]) := by
      split
      · rename_i given
        refine .bind .self fun t text => .bind (.pure fun s => ?_) rest
        obtain rfl := Value.asText_eq_ok.1 text
        exact (h.bySelector s).addFirst declares (by simp [declares.states_iff stated, given])
      · rename_i silent
        refine .bind (.pure fun s => ?_) rest
        exact (h.bySelector s).skip (by simp [declares.states_iff stated, silent])
    refine selected fun table complete => .bind .self fun key known => ?_
    have named {name : Value} {other : ValueKey} (asked : name.key = .ok other)
        (arity : Option Nat) :
        m.Named name arity ↔ key = other ∧ d.arity = arity := declares.named_iff known asked
    cases sort : d.arity with
    | none =>
      refine .pure ⟨complete, fun name other arity asked => ?_, fun name other asked => ?_⟩
      · exact (h.bySignature name other arity asked).skip (by simp [named asked, sort])
      · exact (h.getters name other asked).addFirst declares (by simp [named asked, sort])
    | some n =>
      refine .pure ⟨complete, fun name other arity asked => ?_, fun name other asked => ?_⟩
      · exact (h.bySignature name other arity asked).addFirst declares (by simp [named asked, sort])
      · exact (h.getters name other asked).skip (by simp [named asked, sort])

/-- All members of a base are indexed after those that are. -/
theorem addBase_indexes (table : NodeTable) (base : Value) (h : index.Indexes members) :
    Yields (addBase table index base) fun next =>
      ∃ more, table.membersOf base = .ok more ∧ next.Indexes (members ++ more) := by
  unfold addBase NodeTable.membersOf
  refine .bind .self fun key known => ?_
  rw [known, ok_bind]
  cases table.get? key with
  | none => exact .pure ⟨[], rfl, by simpa using h⟩
  | some entry =>
    obtain ⟨node, file⟩ := entry
    refine .bind .self fun list listed => .bind .self fun items itemized => ?_
    simp only [listed, ok_bind, itemized]
    have indexed := Yields.foldlM_from (Q := fun done (next : SyntaxIndex) =>
        next.Indexes (members ++ done.map fun member => ⟨member, node, file⟩))
      (fun done index member h => by simpa using addMember_indexes (m := ⟨member, node, file⟩) h)
      items [] (by simpa using h)
    exact indexed.imp fun next h => ⟨_, rfl, by simpa using h⟩

/-- The members of all bases are indexed in the order of the linearization. -/
theorem foldlM_addBase_indexes (table : NodeTable) (bases : List Value) (kind : Value) :
    Yields (bases.foldlM (addBase table) { primaryKind := kind }) fun index =>
      ∃ listed, bases.mapM table.membersOf = .ok listed ∧ index.Indexes listed.flatten := by
  refine Yields.foldlM_from (Q := fun done (index : SyntaxIndex) =>
    ∃ listed, done.mapM table.membersOf = .ok listed ∧ index.Indexes listed.flatten) ?_ bases []
    ⟨[], rfl, indexes_empty kind⟩
  rintro done index base ⟨listed, found, h⟩
  refine (addBase_indexes table base h).imp ?_
  rintro next ⟨more, new, indexed⟩
  refine ⟨listed ++ [more], ?_, ?_⟩
  · simp only [List.mapM_append, found, ok_bind, List.mapM_cons, new, List.mapM_nil]
    rfl
  · simpa using indexed

/-- **The index of a contract** holds what the first members along its linearization declare. -/
theorem ofContract_indexes (trees : OrderedMap Value) (name file : String) :
    Yields (ofContract trees name file) fun index =>
      ∃ members, linearization trees name file = .ok members ∧ index.Indexes members := by
  unfold ofContract linearization
  refine .bind .self fun table tabled => .bind .self fun primary found => ?_
  simp only [tabled, ok_bind, found]
  cases primary with
  | none => exact .pure ⟨[], rfl, indexes_empty _⟩
  | some primary =>
    refine .bind .self fun kind _ => .bind .self fun id numbered => .bind .self fun bases based =>
      .bind .self fun list listed => ?_
    simp only [numbered, ok_bind, based, listed]
    refine (foldlM_addBase_indexes table list kind).imp ?_
    rintro index ⟨each, all, h⟩
    exact ⟨each.flatten, by rw [all]; rfl, h⟩

end SyntaxIndex

end SelectorCatalog
