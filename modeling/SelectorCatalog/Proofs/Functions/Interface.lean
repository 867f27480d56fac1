import SelectorCatalog.Functions.Abi
import SelectorCatalog.Proofs.Json.Shape

/-!
# The shape of an interface

A well-formed function entry has a name, inputs that are parameters, and a mutability that is known
if one is given (`Abi.IsFunctionEntry`). Whatever is asked of such an entry has an answer: by
recursion over its parameters it has a canonical signature
(`Abi.IsFunctionEntry.succeeds_canonicalSignature`).
-/

set_option autoImplicit false

namespace SelectorCatalog.Abi

/-- A parameter with a type. A structured one lists its components, which are parameters
themselves. -/
inductive IsParameter : Value → Prop
  | plain {ms : List (String × Value)} {type : String}
      (typed : Assoc.get? "type" ms = some (.text type))
      (unstructured : afterTuple? type.toList = none) : IsParameter (.object ms)
  | tuple {ms : List (String × Value)} {type : String} {dimensions : List Char}
      {components : List Value} (typed : Assoc.get? "type" ms = some (.text type))
      (structured : afterTuple? type.toList = some dimensions)
      (listed : (Assoc.get? "components" ms).getD (.list []) = .list components)
      (each : ∀ p ∈ components, IsParameter p) : IsParameter (.object ms)

/-- The entry of a function: it has a name, its inputs have types, and its mutability is known. -/
structure IsFunctionEntry (ms : List (String × Value)) : Prop where
  name : ∃ s, Assoc.get? "name" ms = some (.text s)
  inputs : ∃ params, (Assoc.get? "inputs" ms).getD (.list []) = .list params ∧
    ∀ p ∈ params, IsParameter p
  mutability : (Value.ofMember "stateMutability" ms).isGiven = true →
    ∃ m : Mutability, Value.ofMember "stateMutability" ms = .text m.label

/-- Whether an entry has the members of a function: its type is left out or says so, and it has a
name. -/
def isNamedFunction (ms : List (String × Value)) : Bool :=
  ((Assoc.get? "type" ms).getD (.text "function")).isText "function" &&
    (Value.ofMember "name" ms).isGiven

/-- An entry of an interface. Of entries that are no functions nothing is asked. -/
def IsEntry (v : Value) :
    Prop := ∃ ms, v = .object ms ∧ (isNamedFunction ms = true → IsFunctionEntry ms)

/-- An entry is that of a function with a canonical signature. -/
structure Declares (entry : Value) (signature : String) : Prop where
  function : isFunction entry = .ok true
  signature : canonicalSignature entry = .ok signature

theorem Declares.unique {entry : Value} {s t : String} (h : Declares entry s)
    (g : Declares entry t) : s = t :=
  Except.ok.inj (h.signature.symm.trans g.signature)

/-! ## Parameters -/

theorem componentTypes_eq (ms : List (String × Value)) :
    componentTypes ms = partTypes ((Assoc.get? "components" ms).getD (.list [])) := by
  induction ms with
  | nil => simp [componentTypes, Assoc.get?, partTypes, typesOf]
  | cons m rest ih =>
    obtain ⟨name, v⟩ := m
    rw [componentTypes, Assoc.get?]
    split
    · rfl
    · exact ih

theorem succeeds_typesOf {params : List Value} (each : ∀ p ∈ params, Succeeds (canonicalType p)) :
    Succeeds (typesOf params) := by
  induction params with
  | nil =>
    rw [typesOf]
    exact succeeds_ok _
  | cons p rest ih =>
    obtain ⟨⟨type, first⟩, others⟩ := List.forall_mem_cons.1 each
    obtain ⟨types, later⟩ := ih others
    rw [typesOf, first, later]
    exact succeeds_ok _

/-- **Every parameter has a canonical type**, however deep its components go. -/
theorem IsParameter.succeeds_canonicalType {p : Value} (h : IsParameter p) :
    Succeeds (canonicalType p) := by
  induction h with
  | plain typed unstructured =>
    rw [canonicalType, Value.required, typed]
    simp only [ok_bind, Value.asText, unstructured]
    exact succeeds_pure _
  | tuple typed structured listed each ih =>
    obtain ⟨types, found⟩ := succeeds_typesOf ih
    rw [canonicalType, Value.required, typed]
    simp only [ok_bind, Value.asText, structured, componentTypes_eq, listed, partTypes, found]
    exact succeeds_pure _

/-! ## Entries -/

theorem isFunction_object (ms : List (String × Value)) :
    isFunction (.object ms) = .ok (isNamedFunction ms) := by
  simp only [isFunction, Value.fieldD_object, Value.field_object, ok_bind]
  rfl

namespace IsFunctionEntry

variable {ms : List (String × Value)} (h : IsFunctionEntry ms)

include h

theorem required_name : ∃ s, (Value.object ms).required "name" = .ok (.text s) := by
  obtain ⟨s, named⟩ := h.name
  exact ⟨s, by rw [Value.required, named]⟩

/-- **Every function entry has a canonical signature.** -/
theorem succeeds_canonicalSignature : Succeeds (canonicalSignature (.object ms)) := by
  obtain ⟨params, listed, each⟩ := h.inputs
  obtain ⟨types, found⟩ := succeeds_typesOf fun p mem => (each p mem).succeeds_canonicalType
  obtain ⟨s, name⟩ := h.required_name
  simp only [canonicalSignature, Value.fieldD_object, ok_bind, listed, partTypes, found, name]
  exact succeeds_pure _

theorem succeeds_parameterCount : Succeeds (parameterCount (.object ms)) := by
  obtain ⟨params, listed, -⟩ := h.inputs
  simp [parameterCount, ok_bind, listed, Value.partCount, Value.parts, Except.map]

theorem succeeds_mutability : Succeeds (Abi.mutability (.object ms)) := by
  simp only [Abi.mutability, Value.field_object, ok_bind]
  split
  · rename_i given
    obtain ⟨m, known⟩ := h.mutability given
    rw [known, Mutability.ofValue, Value.asCase]
    simp [Mutability.ofLabel?_label]
  · split
    · exact succeeds_pure _
    split <;> exact succeeds_pure _

end IsFunctionEntry

/-- An entry is no function, or that of a function with a signature. -/
theorem IsEntry.cases {v : Value} (h : IsEntry v) :
    isFunction v = .ok false ∨ ∃ ms s, v = .object ms ∧ IsFunctionEntry ms ∧ Declares v s := by
  obtain ⟨ms, rfl, shape⟩ := h
  cases named : isNamedFunction ms with
  | false => exact .inl (by rw [isFunction_object, named])
  | true =>
    obtain ⟨s, signature⟩ := (shape named).succeeds_canonicalSignature
    exact .inr ⟨ms, s, rfl, shape named, by rw [isFunction_object, named], signature⟩

end SelectorCatalog.Abi
