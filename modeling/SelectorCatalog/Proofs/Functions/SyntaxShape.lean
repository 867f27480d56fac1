import SelectorCatalog.Functions.Extraction
import SelectorCatalog.Proofs.Json.Shape

/-!
# The shape of syntax trees

A syntax tree of the compiler has a name for every contract, function and state variable, numbers
for contracts, and lists where parts are listed (`IsSyntaxTree`). Such trees are always indexed
(`SyntaxIndex.ofContract_gives`): no question that is asked of them remains without an answer, and
every declaration that is found has a range that can be cut out (`succeeds_sliceSource`).
-/

set_option autoImplicit false

namespace SelectorCatalog

/-! ## Shapes -/

/-- A text, or null where there is none. -/
def Value.IsOptionalText (v : Value) : Prop := ∃ s?, v = ofText? s?

/-- Whether the members of a node are those of a kind of nodes. -/
def isNodeOf (kind : String) (ms : List (String × Value)) :
    Bool := (Value.ofMember "nodeType" ms).isText kind

/-- The declaration of a function or a state variable. -/
structure IsDeclaration (ms : List (String × Value)) : Prop where
  name : ∃ s, Assoc.get? "name" ms = some (.text s)
  selector : (Value.ofMember "functionSelector" ms).IsOptionalText
  range : (Value.ofMember "src" ms).IsOptionalText
  parameters : ∃ inner items, (Value.ofMember "parameters" ms).orElse (.object []) = .object inner ∧
    (Assoc.get? "parameters" inner).getD (.list []) = .list items

/-- A member of a contract. -/
def IsMemberNode (v : Value) : Prop :=
  ∃ ms, v = .object ms ∧
    (isNodeOf "FunctionDefinition" ms = true ∨ isNodeOf "VariableDeclaration" ms = true →
      IsDeclaration ms)

/-- The definition of a contract. -/
structure IsContractNode (ms : List (String × Value)) : Prop where
  id : ∃ n, Assoc.get? "id" ms = some (.int n)
  name : ∃ s, Assoc.get? "name" ms = some (.text s)
  members : ∃ items, (Assoc.get? "nodes" ms).getD (.list []) = .list items ∧
    ∀ m ∈ items, IsMemberNode m
  bases : ∀ v, Assoc.get? "linearizedBaseContracts" ms = some v →
    ∃ ids : List Int, v = .list (ids.map .int)

/-- A node of a source. -/
def IsSourceNode (v : Value) : Prop :=
  ∃ ms, v = .object ms ∧ (isNodeOf "ContractDefinition" ms = true → IsContractNode ms)

/-- The syntax tree of a source. Of trees in the form of old releases nothing is asked. -/
def IsSyntaxTree (v : Value) : Prop :=
  ∃ ms, v = .object ms ∧ (isNodeOf "SourceUnit" ms = true →
    ∃ items, (Assoc.get? "nodes" ms).getD (.list []) = .list items ∧
      ∀ node ∈ items, IsSourceNode node)

/-! ## Members -/

/-- A declaration with a name whose range can be cut out. -/
structure MemberDeclaration.IsSound (d : MemberDeclaration) : Prop where
  name : ∃ s, d.name = .text s
  range : d.range.IsOptionalText

namespace MemberDeclaration

variable {ms : List (String × Value)}

theorem succeeds_isPlainFunction (ms : List (String × Value)) :
    Succeeds (isPlainFunction (.object ms)) := by
  simp only [isPlainFunction, Value.fieldD_object, Value.field_object, ok_bind]
  exact succeeds_pure _

theorem succeeds_parameterCount (h : IsDeclaration ms) :
    Succeeds (parameterCount (.object ms)) := by
  obtain ⟨inner, items, found, listed⟩ := h.parameters
  simp [parameterCount, ok_bind, found, listed, Value.partCount, Value.parts, Except.map]

/-- What is found is sound, and found only in a declaration. -/
theorem ofNode?_gives
    (declares : isNodeOf "FunctionDefinition" ms = true ∨ isNodeOf "VariableDeclaration" ms = true →
      IsDeclaration ms) (contractName : Value) (file : String) :
    Gives (ofNode? (.object ms) contractName file) fun d? => ∀ d ∈ d?, d.IsSound ∧
      IsDeclaration ms := by
  have nothing : Gives (pure none : Except Fault (Option MemberDeclaration))
      fun d? => ∀ d ∈ d?, d.IsSound ∧ IsDeclaration ms := .pure (by simp)
  simp only [ofNode?, Value.field_object, ok_bind]
  split
  · exact nothing
  rename_i visibility outside
  have declared (declaration : IsDeclaration ms) (arity : Option Nat) :
      Gives (do
        let name ← (Value.object ms).required "name"
        let range ← (.ok (Value.ofMember "src" ms) : Except Fault Value)
        return some (⟨name, visibility, contractName, file, range, arity⟩ : MemberDeclaration))
        fun d? => ∀ d ∈ d?, d.IsSound ∧ IsDeclaration ms := by
    obtain ⟨s, named⟩ := declaration.name
    have name : (Value.object ms).required "name" = .ok (.text s) := by rw [Value.required, named]
    rw [name]
    refine .pure ?_
    rintro d ⟨⟩
    exact ⟨⟨⟨s, rfl⟩, declaration.range⟩, declaration⟩
  split
  · rename_i isFunction
    have declaration := declares (.inl isFunction)
    obtain ⟨plain, isPlain⟩ := succeeds_isPlainFunction ms
    rw [isPlain, ok_bind]
    split
    · obtain ⟨count, counted⟩ := succeeds_parameterCount declaration
      rw [counted, ok_bind]
      exact declared declaration _
    · exact nothing
  · split
    · rename_i isVariable
      exact declared (declares (.inr (Bool.and_eq_true _ _ ▸ isVariable).1)) _
    · exact nothing

end MemberDeclaration

/-! ## The index -/

/-- An index all of whose declarations have a name and a range that can be cut out. -/
structure SyntaxIndex.IsSound (index : SyntaxIndex) : Prop where
  bySelector : ∀ e ∈ index.bySelector, e.2.IsSound
  bySignature : ∀ e ∈ index.bySignature, e.2.IsSound
  getters : ∀ e ∈ index.getters, e.2.IsSound

namespace SyntaxIndex

section

variable {κ α : Type} [DecidableEq κ] {entries : List (κ × α)}

theorem forall_mem_addFirst {P : α → Prop} (h : ∀ e ∈ entries, P e.2) {a : α}
    (sound : P a) (key : κ) :
    ∀ e ∈ addFirst key a entries, P e.2 := by
  unfold addFirst
  split
  · exact h
  · intro e mem
    rcases List.mem_append.1 mem with old | new
    · exact h e old
    · exact List.mem_singleton.1 new ▸ sound

theorem exists_mem_of_first? {key : κ} {a : α} (h : first? key entries = some a) :
    ∃ e ∈ entries, e.2 = a := by
  obtain ⟨e, found, same⟩ := Option.map_eq_some_iff.1 h
  exact ⟨e, List.mem_of_find?_eq_some found, same⟩

end

theorem isSound_empty (kind : Value) : IsSound { primaryKind := kind } := by
  constructor <;> simp

theorem addMember_gives {index : SyntaxIndex} (sound : index.IsSound) {member : Value}
    (h : IsMemberNode member) (contractName : Value) (file : String) :
    Gives (addMember (.ok contractName) file index member) IsSound := by
  obtain ⟨ms, rfl, declares⟩ := h
  unfold addMember
  rw [ok_bind]
  refine .bind (MemberDeclaration.ofNode?_gives declares contractName file) fun d? declared => ?_
  cases d? with
  | none => exact .pure sound
  | some d =>
    obtain ⟨found, declaration⟩ := declared d rfl
    obtain ⟨name, named⟩ := found.name
    have key : d.name.key = .ok (.text name) := by rw [named, Value.key]
    obtain ⟨selector?, selector⟩ := declaration.selector
    -- Both ways to go on from the selectors keep the index sound.
    have selected {next : List (String × MemberDeclaration) → Except Fault SyntaxIndex}
        (added : ∀ bySelector, (∀ e ∈ bySelector, e.2.IsSound) → Gives (next bySelector) IsSound) :
        Gives (if (Value.ofText? selector?).isGiven then do
            let s ← (Value.ofText? selector?).asText
            let bySelector ← pure (addFirst ("0x" ++ Text.lower s) d index.bySelector)
            next bySelector
          else do
            let bySelector ← pure index.bySelector
            next bySelector) IsSound := by
      split
      · rename_i given
        cases selector? with
        | none => cases given
        | some s => exact added _ (forall_mem_addFirst sound.bySelector found _)
      · exact added _ sound.bySelector
    simp only [Value.field_object, ok_bind, selector, key]
    refine selected fun bySelector each => ?_
    split
    · exact .pure ⟨each, sound.bySignature, forall_mem_addFirst sound.getters found _⟩
    · exact .pure ⟨each, forall_mem_addFirst sound.bySignature found _, sound.getters⟩

theorem addBase_gives {table : NodeTable}
    (nodes : ∀ e ∈ table, ∃ ms, e.2.1 = .object ms ∧ IsContractNode ms) {index : SyntaxIndex}
    (sound : index.IsSound) (id : Int) : Gives (addBase table index (.int id)) IsSound := by
  unfold addBase
  rw [Value.key, ok_bind]
  split
  · exact .pure sound
  · rename_i node file found
    obtain ⟨e, listed, same⟩ := Option.map_eq_some_iff.1 found
    obtain ⟨ms, node_eq, contract⟩ := nodes e (List.mem_of_find?_eq_some listed)
    obtain rfl : node = .object ms := (congrArg Prod.fst same).symm.trans node_eq
    obtain ⟨items, members, each⟩ := contract.members
    obtain ⟨name, named⟩ := contract.name
    have nameOf : (Value.object ms).required "name" = .ok (.text name) := by
      rw [Value.required, named]
    simp only [Value.fieldD_object, ok_bind, members, Value.parts, nameOf]
    exact .foldlM (fun member mem index sound => addMember_gives sound (each member mem) _ _) sound

end SyntaxIndex

/-! ## Nodes -/

namespace NodeTable

/-- A table of contract nodes. -/
def IsSound (table : NodeTable) : Prop := ∀ e ∈ table, ∃ ms, e.2.1 = .object ms ∧ IsContractNode ms

theorem IsSound.set {table : NodeTable} (h : table.IsSound) {ms : List (String × Value)}
    (contract : IsContractNode ms) (key : ValueKey) (file : String) :
    (table.set key (.object ms, file)).IsSound := by
  induction table with
  | nil => simpa [NodeTable.set, IsSound] using contract
  | cons e rest ih =>
    have ⟨first, others⟩ := List.forall_mem_cons.1 h
    unfold NodeTable.set
    split
    · exact List.forall_mem_cons.2 ⟨⟨ms, rfl, contract⟩, others⟩
    · exact List.forall_mem_cons.2 ⟨first, ih others⟩

theorem addNode_gives {table : NodeTable} (sound : table.IsSound) (file : String) {node : Value}
    (h : IsSourceNode node) : Gives (addNode file table node) IsSound := by
  obtain ⟨ms, rfl, contract⟩ := h
  simp only [addNode, Value.field_object, Value.field?_object, ok_bind]
  split
  · rename_i isContract numbered
    have node := contract isContract
    obtain ⟨n, id⟩ := node.id
    cases numbered.symm.trans id
    exact .pure (sound.set node _ _)
  · exact .pure sound

theorem addTree_gives {table : NodeTable} (sound : table.IsSound) {tree : String × Value}
    (h : IsSyntaxTree tree.2) : Gives (addTree table tree) IsSound := by
  obtain ⟨ms, shape, nodes⟩ := h
  unfold addTree
  simp only [shape, Value.field_object, Value.fieldD_object, ok_bind]
  split
  · rename_i unit
    obtain ⟨items, listed, each⟩ := nodes unit
    rw [listed, Value.parts, ok_bind]
    exact .foldlM (fun node mem table sound => addNode_gives sound _ (each node mem)) sound
  · exact .pure sound

theorem ofTrees_gives {trees : OrderedMap Value} (h : ∀ tree ∈ trees.entries, IsSyntaxTree tree.2) :
    Gives (ofTrees trees) IsSound :=
  .foldlM (fun tree mem table sound => addTree_gives sound (h tree mem)) (by simp [IsSound])

theorem named_gives {table : NodeTable} (sound : table.IsSound) (name file : String)
    {fallback : Option Value} (known : ∀ v ∈ fallback, ∃ ms, v = .object ms ∧ IsContractNode ms) :
    Gives (table.named name file fallback) fun found =>
      ∀ v ∈ found, ∃ ms, v = .object ms ∧ IsContractNode ms := by
  induction table generalizing fallback with
  | nil => exact .ok known
  | cons e rest ih =>
    obtain ⟨key, node, nodeFile⟩ := e
    have ⟨⟨ms, shape, contract⟩, others⟩ := List.forall_mem_cons.1 sound
    have here : ∀ v ∈ some node, ∃ ms, v = .object ms ∧ IsContractNode ms := by
      rintro v ⟨⟩
      exact ⟨ms, shape, contract⟩
    obtain rfl : node = .object ms := shape
    simp only [named, Value.field_object, ok_bind]
    split
    · split
      · exact .pure here
      · exact ih others here
    · exact ih others known

end NodeTable

/-- **Syntax trees are always indexed**, and whatever is found in them is sound. -/
theorem SyntaxIndex.ofContract_gives {trees : OrderedMap Value}
    (h : ∀ tree ∈ trees.entries, IsSyntaxTree tree.2) (name file : String) :
    Gives (ofContract trees name file) IsSound := by
  unfold ofContract
  refine .bind (NodeTable.ofTrees_gives h) fun table sound => ?_
  refine .bind (NodeTable.named_gives sound name file (by simp)) fun found known => ?_
  cases found with
  | none => exact .pure (isSound_empty _)
  | some primary =>
    obtain ⟨ms, rfl, contract⟩ := known primary rfl
    obtain ⟨id, numbered⟩ := contract.id
    obtain ⟨ids, bases⟩ : ∃ ids : List Int, (Assoc.get? "linearizedBaseContracts" ms).getD
        (.list [Value.ofMember "id" ms]) = .list (ids.map .int) := by
      cases given : Assoc.get? "linearizedBaseContracts" ms with
      | none => exact ⟨[id], by rw [Value.ofMember, numbered]; rfl⟩
      | some v => exact contract.bases v given
    simp only [Value.field_object, Value.fieldD_object, ok_bind, bases, Value.parts]
    refine .foldlM (fun base mem index sound' => ?_) (isSound_empty _)
    obtain ⟨n, -, rfl⟩ := List.mem_map.1 mem
    exact addBase_gives sound sound' n

/-! ## Looking up -/

theorem SyntaxIndex.IsSound.lookup_gives {index : SyntaxIndex} (h : index.IsSound)
    (selector name : String) (arity : Nat) :
    Gives (index.lookup selector (.text name) arity) fun d? => ∀ d ∈ d?, d.IsSound := by
  have found {κ : Type} [DecidableEq κ] {entries : List (κ × MemberDeclaration)}
      (each : ∀ e ∈ entries, e.2.IsSound) {key : κ} {d : MemberDeclaration}
      (first : first? key entries = some d) : d.IsSound := by
    obtain ⟨e, mem, rfl⟩ := exists_mem_of_first? first
    exact each e mem
  unfold lookup
  split
  · rename_i d first
    refine .ok ?_
    rintro d ⟨⟩
    exact found h.bySelector first
  · rw [Value.key, ok_bind]
    refine .pure fun d other => ?_
    cases first : first? (ValueKey.text name, arity) index.bySignature with
    | some e =>
      rw [first] at other
      cases other
      exact found h.bySignature first
    | none =>
      rw [first] at other
      exact found h.getters other

theorem succeeds_sliceSource (sources : OrderedMap String) (file : String) {range : Value}
    (h : range.IsOptionalText) : Succeeds (sliceSource sources file range) := by
  obtain ⟨s?, rfl⟩ := h
  cases s? with
  | none => exact succeeds_ok _
  | some s =>
    unfold sliceSource
    split
    · exact succeeds_ok _
    split
    · exact succeeds_ok _
    · simp only [Value.ofText?, Value.asText, ok_bind]
      split
      · split <;> exact succeeds_pure _
      · exact succeeds_pure _

end SelectorCatalog
