import SelectorCatalog.Fault
import SelectorCatalog.Json.Value

/-!
# Functions of a contract

One record tells one function that can be called from outside: its selector and signature, what it
may do to the state, who may call it, and where it is declared.
-/

set_option autoImplicit false

namespace SelectorCatalog

/-- What a function may do to the state. -/
inductive Mutability where
  | pureOnly
  | view
  | nonpayable
  | payable
  deriving DecidableEq, Inhabited

namespace Mutability

/-- The word for a mutability. -/
def label : Mutability → String
  | pureOnly => "pure"
  | view => "view"
  | nonpayable => "nonpayable"
  | payable => "payable"

/-- All mutabilities. -/
def all : List Mutability := [pureOnly, view, nonpayable, payable]

/-- The mutability of a word. -/
def ofLabel? (s : String) : Option Mutability := all.find? fun m => m.label == s

theorem ofLabel?_label (m : Mutability) : ofLabel? m.label = some m := by cases m <;> decide

end Mutability

/-- Who may call a function. -/
inductive Visibility where
  /-- Only callers from outside. -/
  | external
  /-- Callers from outside and the contract itself. -/
  | anywhere
  deriving DecidableEq, Inhabited

namespace Visibility

/-- The word for a visibility. -/
def label : Visibility → String
  | external => "external"
  | anywhere => "public"

/-- All visibilities. -/
def all : List Visibility := [external, anywhere]

/-- The visibility of a word. -/
def ofLabel? (s : String) : Option Visibility := all.find? fun v => v.label == s

theorem ofLabel?_label (v : Visibility) : ofLabel? v.label = some v := by cases v <;> decide

end Visibility

/-- What a value stands for among named cases. -/
def Value.asCase {α : Type} (ofLabel? : String → Option α) (noun : String) (v : Value) :
    Except Fault α :=
  match (match v with
    | .text s => ofLabel? s
    | _ => none) with
  | some a => .ok a
  | none => .error (.badValue (v.quoted ++ " is not a valid " ++ noun))

/-- The mutability that a value stands for. -/
def Mutability.ofValue : Value → Except Fault Mutability := Value.asCase ofLabel? "Mutability"

/-- The visibility that a value stands for. -/
def Visibility.ofValue : Value → Except Fault Visibility := Value.asCase ofLabel? "Visibility"

/-- A function that can be called from outside. Names come from documents and are texts in all but
odd ones. -/
structure FunctionRecord where
  contractId : String
  selector : String
  signature : String
  functionName : Value
  mutability : Mutability
  visibility : Visibility
  contractName : Value
  declaringContract : Value
  filename : Value
  sourceCode : String
  deriving Inhabited

end SelectorCatalog
