import SelectorCatalog.Json.Shape
import SelectorCatalog.Proofs.Steps

/-!
# Questions that a document can answer

A question about the members of a document has an answer exactly if the document is an object
(`Value.succeeds_field`).
-/

set_option autoImplicit false

namespace SelectorCatalog.Value

/-- An object. -/
def IsObject (v : Value) : Prop := ∃ ms, v = .object ms

/-- An object all of whose members have a property. -/
def IsObjectOf (P : Value → Prop) (v : Value) : Prop := ∃ ms, v = .object ms ∧ ∀ m ∈ ms, P m.2

/-- The value of a member, null if there is none. -/
def ofMember (name : String) (ms : List (String × Value)) : Value := (Assoc.get? name ms).getD .null

@[simp] theorem field?_object (name : String) (ms : List (String × Value)) :
    (object ms).field? name = .ok (Assoc.get? name ms) := rfl

@[simp] theorem field_object (name : String) (ms : List (String × Value)) :
    (object ms).field name = .ok (ofMember name ms) := rfl

@[simp] theorem fieldD_object (name : String) (ms : List (String × Value)) (d : Value) :
    (object ms).fieldD name d = .ok ((Assoc.get? name ms).getD d) := rfl

theorem members_ok {v : Value} {ms : List (String × Value)} :
    v.members = .ok ms ↔ v = .object ms := by
  cases v <;> simp [members]

theorem succeeds_members {v : Value} :
    Succeeds v.members ↔ v.IsObject := exists_congr fun _ => members_ok

theorem succeeds_field {name : String} {v : Value} : Succeeds (v.field name) ↔ v.IsObject :=
  succeeds_map.trans (succeeds_map.trans succeeds_members)

theorem field_of_not_isObject {v : Value} (h : ¬v.IsObject) (name : String) :
    v.field name = .error .noSuchField := by
  cases v with
  | object ms => exact absurd ⟨ms, rfl⟩ h
  | _ => rfl

theorem isObject_orElse {v : Value} :
    (v.orElse (.object [])).IsObject ↔ (v.isGiven = true → v.IsObject) := by
  rw [orElse]
  split
  · rename_i given
    simp [given]
  · rename_i silent
    simp [silent, IsObject]

end SelectorCatalog.Value
