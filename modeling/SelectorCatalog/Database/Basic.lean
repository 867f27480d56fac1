import SelectorCatalog.Database.Row
import SelectorCatalog.Stop

/-!
# The database

Contracts wait in the database to be indexed, and keep what indexing came to. Storing never changes
a row that is there: the first contract of an id stays.
-/

set_option autoImplicit false

namespace SelectorCatalog

/-- The tables, and how values are written into them. -/
structure Database where
  contracts : List ContractRow := []
  functions : List FunctionRow := []
  /-- Columns that an older release had and this one does not use, with their tables. -/
  unusedColumns : List (String × String) := []
  /-- Columns that a table of an older release lacks for good. -/
  lackingColumns : List (String × String) := []
  cast : TextCast := .plain
  deriving Inhabited

/-- Why the database refuses a request. -/
inductive StorageFailure where
  /-- A row lacks a column that it must have. -/
  | constraint
  /-- The database broke down in the middle of a transaction. -/
  | breakdown
  | negativeLimit
  /-- The file is not a database. -/
  | notADatabase
  deriving DecidableEq, Inhabited

namespace Database

/-! ## Contracts -/

/-- The row of a contract id. -/
def row? (db : Database) (id : String) : Option ContractRow := db.contracts.find? fun r => r.id = id

/-- The tables with a row for a contract, unless its id has one. -/
def storeOne (db : Database) (c : Contract) : Database :=
  if (db.row? c.id).isSome then db
  else { db with contracts := db.contracts ++ [ContractRow.ofContract db.cast c] }

@[simp] theorem cast_storeOne (db : Database) (c : Contract) : (db.storeOne c).cast = db.cast := by
  unfold storeOne
  split <;> rfl

/-- The tables with rows for contracts. -/
def store (db : Database) (cs : List Contract) : Database := cs.foldl storeOne db

/-- The number of rows that storing contracts adds. -/
def addedBy (db : Database) (cs : List Contract) : Nat :=
  (db.store cs).contracts.length - db.contracts.length

/-- The contract of an id. -/
def contract? (db : Database) (id : String) : Except Fault (Option Contract) :=
  match db.row? id with
  | some r => r.contract.map some
  | none => .ok none

/-- The status of a contract id. -/
def status? (db : Database) (id : String) : Except Fault (Option ContractStatus) :=
  match db.row? id with
  | some r => (ContractStatus.ofValue (.text r.status)).map some
  | none => .ok none

/-- The rows of a status. -/
def withStatus (db : Database) (s : ContractStatus) : List ContractRow :=
  db.contracts.filter fun r => r.status == s.label

/-- The pending rows after an id, in ascending order of ids. -/
def pendingAfter (db : Database) (after : String) : List ContractRow :=
  ((db.withStatus .pending).filter fun r => decide (after < r.id)).mergeSort fun a b =>
    decide (a.id ≤ b.id)

/-- The first pending contracts after an id. -/
def fetchPending (db : Database) (after : String) (limit : Int) :
    Except (Stop StorageFailure) (List Contract) :=
  if limit < 0 then .error (.failure .negativeLimit)
  else Stop.lift (((db.pendingAfter after).take limit.toNat).mapM ContractRow.contract)

/-- Whether a row has one of the statuses, `pending` apart. -/
def isReset (statuses : List ContractStatus) (r : ContractRow) : Bool :=
  statuses.any fun s => s != .pending && s.label == r.status

/-- Moves the contracts of some statuses back to pending, and forgets why they failed. -/
def reset (db : Database) (statuses : List ContractStatus) : Database :=
  { db with contracts := db.contracts.map fun r =>
      if isReset statuses r then
        { r with status := ContractStatus.pending.label, errorKind := none, errorMessage := none }
      else r }

/-- The number of contracts that `reset` moves. -/
def resetCount (db : Database) (statuses : List ContractStatus) : Nat :=
  db.contracts.countP (isReset statuses)

/-- The number of contracts, of one status or in all. -/
def count (db : Database) : Option ContractStatus → Nat
  | none => db.contracts.length
  | some s => (db.withStatus s).length

/-! ## Statistics -/

/-- How often each value occurs, in the order of first occurrence. -/
def tally {α : Type} [DecidableEq α] : List α → List (α × Nat)
  | [] => []
  | a :: rest => (a, rest.count a + 1) :: (tally rest).filter fun e => e.1 != a

/-- The number of contracts by status; the known statuses come first, and those without a contract
too. -/
def statusCounts (db : Database) : OrderedMap Nat :=
  let known := OrderedMap.ofList (ContractStatus.all.map fun s => (s.label, 0))
  (tally (db.contracts.map ContractRow.status)).foldl (fun m e => m.insert e.1 e.2) known

/-- The name under which failures of a kind are counted. -/
def failureName (kind : Option String) : String :=
  let name := kind.getD ""
  if name.isEmpty then "unknown" else name

/-- The number of failed contracts by kind of failure, the most frequent first. Of several kinds
with one name the last one counts. -/
def failureCounts (db : Database) : OrderedMap Nat :=
  let kinds := tally ((db.withStatus .failed).map ContractRow.errorKind)
  let byNumber := kinds.mergeSort fun a b => decide (b.2 ≤ a.2)
  OrderedMap.ofList (byNumber.map fun e => (failureName e.1, e.2))

/-! ## Functions -/

/-- The rows of the functions of a contract. -/
def functionRows (db : Database) (id : String) : List FunctionRow :=
  db.functions.filter fun r => r.contractId = some id

/-- The functions of a contract in ascending order of selectors. -/
def functionsOf (db : Database) (id : String) : Except Fault (List FunctionRecord) :=
  ((db.functionRows id).mergeSort fun a b =>
    decide (a.selector.getD "" ≤ b.selector.getD "")).mapM FunctionRow.record

/-- The number of functions, of one contract or in all. -/
def countFunctions (db : Database) : Option String → Nat
  | none => db.functions.length
  | some id => (db.functionRows id).length

/-! ## Columns -/

/-- The columns of the table of contracts. -/
def contractColumns : List String :=
  ["id", "address", "name", "compiler_version", "source_format", "sources", "settings",
    "constructor_args", "status", "error_kind", "error_message", "created_at", "indexed_at"]

/-- The columns of the table of functions. -/
def functionColumns : List String :=
  ["contract_id", "selector", "signature", "function_name", "mutability", "visibility",
    "contract_name", "declaring_contract", "filename", "source_code"]

/-- The columns of this release with their tables. -/
def standardColumns : List (String × String) :=
  contractColumns.map (fun c => ("contract", c)) ++ functionColumns.map fun c => ("function", c)

/-- The columns with their tables, in ascending order. -/
def columns (db : Database) : List (String × String) :=
  ((standardColumns ++ db.unusedColumns).filter fun c => !db.lackingColumns.contains c).mergeSort
    fun a b => decide (a.1 < b.1) || a.1 == b.1 && decide (a.2 ≤ b.2)

end Database

end SelectorCatalog
