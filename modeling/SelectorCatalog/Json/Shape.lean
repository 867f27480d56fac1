import SelectorCatalog.Fault

/-!
# The shape of a document

Metadata, ABIs and compiler answers come from elsewhere, so what is asked of a document may not be
there. Each question here gives the answer or the fault that asking it means.
-/

set_option autoImplicit false

namespace SelectorCatalog.Value

/-- The members of an object. -/
def members : Value → Except Fault (List (String × Value))
  | object ms => .ok ms
  | _ => .error .noSuchField

/-- An optional member of an object. -/
def field? (name : String) (v : Value) : Except Fault (Option Value) :=
  v.members.map (Assoc.get? name)

/-- An optional member of an object, with a value to stand for it. -/
def fieldD (name : String) (v default : Value) : Except Fault Value :=
  (v.field? name).map (·.getD default)

/-- An optional member of an object; null stands for it. -/
def field (name : String) (v : Value) : Except Fault Value := v.fieldD name null

/-- A required member of an object. -/
def required (name : String) : Value → Except Fault Value
  | object ms => match Assoc.get? name ms with
    | some v => .ok v
    | none => .error .missingMember
  | _ => .error .wrongType

/-- The parts of a value: items of a list, names of an object, characters of a text. -/
def parts : Value → Except Fault (List Value)
  | list items => .ok items
  | object ms => .ok (ms.map fun m => text m.1)
  | text s => .ok (s.toList.map fun c => text (String.singleton c))
  | _ => .error .wrongType

/-- The number of parts of a value. -/
def partCount (v : Value) : Except Fault Nat := v.parts.map List.length

/-- The text that a value is. -/
def asText : Value → Except Fault String
  | text s => .ok s
  | _ => .error .noSuchField

/-- Whether the value is the text `s`. -/
def isText (s : String) : Value → Bool
  | text t => t == s
  | _ => false

end SelectorCatalog.Value
