import SelectorCatalog.Functions.Record
import SelectorCatalog.Json.Key
import SelectorCatalog.Json.Shape
import SelectorCatalog.Text.LowerCase

/-!
# Declarations in syntax trees

Syntax trees tell what an interface leaves out: who may call a function, which contract declares it
and where. `SyntaxIndex` holds the public and external members of a contract and its bases, the most
derived first, so that a member hides those that it overrides.
-/

set_option autoImplicit false

namespace SelectorCatalog

/-- A public or external member of a contract. -/
structure MemberDeclaration where
  name : Value
  visibility : Visibility
  contractName : Value
  sourceFile : String
  /-- Where the declaration stands in its source. -/
  range : Value
  /-- The number of parameters, `none` for a state variable. -/
  arity : Option Nat

/-- Contract nodes by their number, each with its source. -/
abbrev NodeTable := List (ValueKey × Value × String)

namespace NodeTable

/-- Sets the node of a key, at the place of one that is there. -/
def set (key : ValueKey) (node : Value × String) : NodeTable → NodeTable
  | [] => [(key, node)]
  | (k, n) :: rest => if k = key then (k, node) :: rest else (k, n) :: set key node rest

/-- The node of a key. -/
def get? (table : NodeTable) (key : ValueKey) : Option (Value × String) :=
  (table.find? fun e => e.1 = key).map Prod.snd

/-- Adds a node if it is a contract with a number. -/
def addNode (file : String) (table : NodeTable) (node : Value) : Except Fault NodeTable := do
  let type ← node.field "nodeType"
  match type.isText "ContractDefinition", ← node.field? "id" with
  | true, some id => return table.set (← id.key) (node, file)
  | _, _ => return table

/-- Adds the contracts of a syntax tree; a tree in the form of old releases has none. -/
def addTree (table : NodeTable) (tree : String × Value) : Except Fault NodeTable := do
  if (← tree.2.field "nodeType").isText "SourceUnit" then
    (← (← tree.2.fieldD "nodes" (.list [])).parts).foldlM (addNode tree.1) table
  else return table

/-- The contracts of all syntax trees. -/
def ofTrees (trees : OrderedMap Value) : Except Fault NodeTable := trees.entries.foldlM addTree []

/-- The node of a contract name, in the given source if it has one and else the last one. -/
def named (name file : String) : NodeTable → Option Value → Except Fault (Option Value)
  | [], fallback => .ok fallback
  | (_, node, nodeFile) :: rest, fallback => do
    if (← node.field "name").isText name then
      if nodeFile = file then return some node else named name file rest (some node)
    else named name file rest fallback

end NodeTable

/-- The visibility of a member that can be called from outside. -/
def calledFromOutside? : Value → Option Visibility
  | .text s => Visibility.ofLabel? s
  | _ => none

namespace MemberDeclaration

/-- The number of parameters of a function member. -/
def parameterCount (member : Value) : Except Fault Nat := do
  let list := (← member.field "parameters").orElse (.object [])
  (← list.fieldD "parameters" (.list [])).partCount

/-- Whether a member is a function with a name of its own and not a constructor. -/
def isPlainFunction (member : Value) : Except Fault Bool := do
  let kind ← member.fieldD "kind" (.text "function")
  let constructed ← member.field "isConstructor"
  let name ← member.field "name"
  return kind.isText "function" && !constructed.isGiven && name.isGiven

/-- The declaration of a member of a contract, if it can be called from outside. -/
def ofNode? (member contractName : Value) (file : String) :
    Except Fault (Option MemberDeclaration) := do
  let type ← member.field "nodeType"
  match calledFromOutside? (← member.field "visibility") with
  | none => return none
  | some visibility =>
    let declared (arity : Option Nat) : Except Fault (Option MemberDeclaration) := do
      let name ← member.required "name"
      let range ← member.field "src"
      return some ⟨name, visibility, contractName, file, range, arity⟩
    if type.isText "FunctionDefinition" then
      if ← isPlainFunction member then declared (some (← parameterCount member)) else return none
    else if type.isText "VariableDeclaration" && (← member.field "stateVariable").isGiven then
      declared none
    else return none

end MemberDeclaration

/-- The members of a contract and its bases by selector, by name and number of parameters, and
getters of state variables by name. Of several under one key the first counts. -/
structure SyntaxIndex where
  bySelector : List (String × MemberDeclaration) := []
  bySignature : List ((ValueKey × Nat) × MemberDeclaration) := []
  getters : List (ValueKey × MemberDeclaration) := []
  /-- The kind of the contract that was indexed; null if it has no syntax tree. -/
  primaryKind : Value := .null

namespace SyntaxIndex

/-- Adds an entry unless the key has one. -/
def addFirst {κ α : Type} [DecidableEq κ] (key : κ) (a : α) (entries : List (κ × α)) :
    List (κ × α) :=
  if entries.any fun e => e.1 = key then entries else entries ++ [(key, a)]

/-- The entry of a key. -/
def first? {κ α : Type} [DecidableEq κ] (key : κ) (entries : List (κ × α)) : Option α :=
  (entries.find? fun e => e.1 = key).map Prod.snd

/-- Adds a member of a contract. -/
def addMember (contractName : Except Fault Value) (file : String) (index : SyntaxIndex)
    (member : Value) : Except Fault SyntaxIndex := do
  match ← MemberDeclaration.ofNode? member (← contractName) file with
  | none => return index
  | some d =>
    let selector ← member.field "functionSelector"
    let bySelector ←
      if selector.isGiven then do
        let s ← selector.asText
        pure (addFirst ("0x" ++ Text.lower s) d index.bySelector)
      else pure index.bySelector
    let name ← d.name.key
    match d.arity with
    | none => return { index with bySelector, getters := addFirst name d index.getters }
    | some n =>
        return { index with bySelector, bySignature := addFirst (name, n) d index.bySignature }

/-- Adds the members of a base; a base without a syntax tree has none. -/
def addBase (table : NodeTable) (index : SyntaxIndex) (base : Value) :
    Except Fault SyntaxIndex := do
  match table.get? (← base.key) with
  | none => return index
  | some (node, file) =>
    (← (← node.fieldD "nodes" (.list [])).parts).foldlM
      (addMember (node.required "name") file) index

/-- The index of a contract. -/
def ofContract (trees : OrderedMap Value) (name file : String) : Except Fault SyntaxIndex := do
  let table ← NodeTable.ofTrees trees
  match ← table.named name file none with
  | none => return {}
  | some primary =>
    let primaryKind ← primary.field "contractKind"
    let bases ← primary.fieldD "linearizedBaseContracts" (.list [← primary.field "id"])
    (← bases.parts).foldlM (addBase table) { primaryKind }

/-- The declaration of a function: by its selector, else by its name and number of parameters, else
as the getter of a state variable. -/
def lookup (index : SyntaxIndex) (selector : String) (name : Value) (arity : Nat) :
    Except Fault (Option MemberDeclaration) :=
  match first? selector index.bySelector with
  | some d => .ok (some d)
  | none => do
    let key ← name.key
    return (first? (key, arity) index.bySignature).orElse fun _ => first? key index.getters

/-- The visibility of functions that have no declaration. -/
def defaultVisibility (index : SyntaxIndex) : Visibility :=
  if index.primaryKind.isText "interface" then .external else .anywhere

end SyntaxIndex

end SelectorCatalog
