import SelectorCatalog.Digest.Keccak
import SelectorCatalog.Functions.Record
import SelectorCatalog.Json.Shape
import SelectorCatalog.Text.Hex
import SelectorCatalog.Text.Utf8

/-!
# Interface entries

An entry of a contract's interface tells the name and the parameters of a function. Its canonical
signature writes structured parameters as tuples of their components, and the selector is the
beginning of the signature's digest.
-/

set_option autoImplicit false

namespace SelectorCatalog.Abi

/-- The word that the type of a structured parameter begins with. -/
def tupleWord : List Char := "tuple".toList

/-- What follows the word for a structured type; `none` for other types. -/
def afterTuple? (type : List Char) : Option (List Char) :=
  if tupleWord.isPrefixOf type then some (type.drop tupleWord.length) else none

mutual

/-- The canonical type of a parameter. -/
def canonicalType : Value → Except Fault String
  | .object ms => do
    let type ← (← (Value.object ms).required "type").asText
    match afterTuple? type.toList with
    | some dimensions =>
      return "(" ++ ",".intercalate (← componentTypes ms) ++ ")" ++ String.ofList dimensions
    | none => return type
  | _ => .error .wrongType

/-- The canonical types of the components among the members of a parameter. -/
def componentTypes : List (String × Value) → Except Fault (List String)
  | [] => .ok []
  | (name, v) :: rest => if name = "components" then partTypes v else componentTypes rest

/-- The canonical types of the parts of a value. -/
def partTypes : Value → Except Fault (List String)
  | .list params => typesOf params
  | .object [] => .ok []
  | .text s => if s.isEmpty then .ok [] else .error .wrongType
  | _ => .error .wrongType

/-- The canonical types of parameters in order. -/
def typesOf : List Value → Except Fault (List String)
  | [] => .ok []
  | p :: rest => do
    let type ← canonicalType p
    return type :: (← typesOf rest)

end

/-- The canonical signature of an entry. -/
def canonicalSignature (entry : Value) : Except Fault String := do
  let types ← partTypes (← entry.fieldD "inputs" (.list []))
  let name ← entry.required "name"
  return name.display ++ "(" ++ ",".intercalate types ++ ")"

/-- The number of parameters of an entry. -/
def parameterCount (entry : Value) : Except Fault Nat := do
  (← entry.fieldD "inputs" (.list [])).partCount

/-- The selector of a signature for a digest: its first four bytes. -/
def selectorBy (digest : List UInt8 → List UInt8) (signature : String) : String :=
  "0x" ++ Text.hexBytes ((digest (Text.utf8 signature.toList)).take 4)

/-- The selector of a signature. -/
def selector (signature : String) : String := selectorBy Keccak.digest signature

/-- The mutability of an entry. Entries of old releases have two flags in its place. -/
def mutability (entry : Value) : Except Fault Mutability := do
  let state ← entry.field "stateMutability"
  if state.isGiven then Mutability.ofValue state
  else if (← entry.field "payable").isGiven then return .payable
  else if (← entry.field "constant").isGiven then return .view
  else return .nonpayable

/-- Whether an entry is a function with a name. -/
def isFunction (entry : Value) : Except Fault Bool := do
  let type ← entry.fieldD "type" (.text "function")
  let name ← entry.field "name"
  return type.isText "function" && name.isGiven

end SelectorCatalog.Abi
