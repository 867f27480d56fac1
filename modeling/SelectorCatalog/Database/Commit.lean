import SelectorCatalog.Database.Basic

/-!
# Committing outcomes

What indexing a chunk of contracts came to is written in one transaction: either every contract gets
its function rows and its status, or nothing changes. A transaction is a list of statements; it
fails if one of them does, or if the database breaks down before one of them or before the end.
-/

set_option autoImplicit false

namespace SelectorCatalog

/-- What indexing a contract came to. -/
structure IndexOutcome (φ : Type) where
  contractId : String
  status : ContractStatus
  functions : List φ := []
  errorKind : Option String := none
  errorMessage : Option String := none
  deriving Inhabited

/-- The outcome with its functions told in other words. -/
def IndexOutcome.map {φ ψ : Type} (f : φ → ψ) (o : IndexOutcome φ) : IndexOutcome ψ :=
  { o with functions := o.functions.map f }

/-- An outcome with the rows that a database makes of its functions. -/
def IndexOutcome.inRows (cast : TextCast) (o : IndexOutcome FunctionRecord) :
    IndexOutcome FunctionRow :=
  o.map (FunctionRow.ofRecord cast)

/-- A statement that changes the tables. -/
inductive Statement where
  | deleteFunctions (contractId : String)
  | insertFunction (row : FunctionRow)
  | setStatus (contractId : String) (status : ContractStatus)
    (errorKind errorMessage : Option String)

namespace Statement

/-- The tables after a statement; `none` if it violates a constraint. -/
def apply : Statement → Database → Option Database
  | deleteFunctions id, db =>
    some { db with functions := db.functions.filter fun r => r.contractId != some id }
  | insertFunction row, db =>
    if row.isComplete then some { db with functions := db.functions ++ [row] } else none
  | setStatus id status errorKind errorMessage, db =>
    some { db with contracts := db.contracts.map fun r =>
      if r.id = id then
        { r with status := status.label, errorKind, errorMessage, wasIndexed := true }
      else r }

/-- The tables after statements in order. `breakdown` is the number of statements before which the
database breaks down. -/
def applyAll : Option Nat → List Statement → Database → Except StorageFailure Database
  | some 0, _, _ => .error .breakdown
  | _, [], db => .ok db
  | breakdown, s :: rest, db => match s.apply db with
    | some db => applyAll (breakdown.map (· - 1)) rest db
    | none => .error .constraint

end Statement

namespace Database

/-- The first function of each selector, in order. -/
def firstOfSelectors : List FunctionRow → List FunctionRow
  | [] => []
  | r :: rest => r :: (firstOfSelectors rest).filter fun s => s.selector != r.selector

/-- The rows that an outcome brings; only an indexed contract has any. -/
def rowsOf (o : IndexOutcome FunctionRow) : List FunctionRow :=
  if o.status = .indexed then firstOfSelectors o.functions else []

/-- The statements that replace the function rows of contracts. -/
def replaceStatements (outcomes : List (IndexOutcome FunctionRow)) : List Statement :=
  (outcomes.map fun o => .deleteFunctions o.contractId)
    ++ (outcomes.flatMap rowsOf).map .insertFunction

/-- The statements that set the statuses of contracts. -/
def statusStatements (outcomes : List (IndexOutcome FunctionRow)) : List Statement :=
  outcomes.map fun o => .setStatus o.contractId o.status o.errorKind o.errorMessage

/-- The statements that commit outcomes. -/
def commitStatements (outcomes : List (IndexOutcome FunctionRow)) : List Statement :=
  replaceStatements outcomes ++ statusStatements outcomes

/-- Writes outcomes in one transaction; nothing is to be written without an outcome. -/
def commit (db : Database) (outcomes : List (IndexOutcome FunctionRow)) (breakdown : Option Nat) :
    Except StorageFailure Database :=
  if outcomes.isEmpty then .ok db
  else Statement.applyAll breakdown (commitStatements outcomes) db

end Database

end SelectorCatalog
