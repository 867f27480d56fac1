import SelectorCatalog.Indexing.Contract

/-!
# Indexing the pending contracts

Pending contracts are indexed in chunks in ascending order of ids. The contracts of a chunk are
finished in any order, and their outcomes are committed together. A chunk that is interrupted, or
whose transaction breaks down, leaves no trace, so a later run takes it up again.
-/

set_option autoImplicit false

namespace SelectorCatalog

/-- What a run of indexing came to. -/
structure IndexSummary where
  indexed : Nat := 0
  failed : Nat := 0
  functions : Nat := 0
  reset : Nat := 0
  /-- The number of failed contracts by kind of failure. -/
  failures : OrderedMap Nat := .empty
  deriving Inhabited

namespace IndexSummary

/-- The number of contracts that were indexed, with or without success. -/
def processed (s : IndexSummary) : Nat := s.indexed + s.failed

/-- Whether no contract failed. -/
def succeeded (s : IndexSummary) : Bool := s.failed == 0

/-- Counts an outcome. -/
def add (s : IndexSummary) (o : IndexOutcome FunctionRow) : IndexSummary :=
  if o.status = .indexed then
    { s with indexed := s.indexed + 1, functions := s.functions + o.functions.length }
  else
    let name := Database.failureName o.errorKind
    { s with
      failed := s.failed + 1
      failures := s.failures.insert name ((s.failures.get? name).getD 0 + 1) }

end IndexSummary

/-- Which contracts a run indexes. -/
structure IndexOptions where
  chunkSize : Int := 100
  workers : Int := 4
  /-- Index every contract anew. -/
  reindex : Bool := false
  /-- Index failed contracts anew. -/
  retryFailed : Bool := false
  limit : Option Int := none

/-- How the contracts of a run are indexed. -/
structure Indexer (σ : Type) where
  tools : Toolchain
  run : Runner σ
  /-- The order in which the contracts of a chunk are finished. -/
  schedule : List Contract → List Contract := id
  /-- Every contract of a chunk is finished once. -/
  schedule_perm : ∀ cs, (schedule cs).Perm cs := by exact List.Perm.refl
  /-- Where the transaction of a chunk breaks down, by the number of chunks before it. -/
  breakdown : Nat → Option Nat := fun _ => none

/-- The tables and the state of the compiler. -/
structure IndexState (σ : Type) where
  db : Database
  compiler : σ

namespace Indexer

variable {σ : Type}

/-- Indexes contracts in order; `none` if the user interrupts. -/
def outcomes (x : Indexer σ) : List Contract → σ → Option (List (IndexOutcome FunctionRecord)) × σ
  | [], s => (some [], s)
  | c :: rest, s => match c.index x.tools x.run s with
    | (none, s) => (none, s)
    | (some o, s) => match x.outcomes rest s with
      | (some os, s) => (some (o :: os), s)
      | (none, s) => (none, s)

/-- Outcomes in ascending order of ids. -/
def sortOutcomes (os : List (IndexOutcome FunctionRow)) : List (IndexOutcome FunctionRow) :=
  os.mergeSort fun a b => decide (a.contractId ≤ b.contractId)

/-- Indexes a chunk and commits its outcomes. -/
def chunk (x : Indexer σ) (number : Nat) (cs : List Contract) (s : IndexState σ) :
    Except (Stop StorageFailure) (List (IndexOutcome FunctionRow)) × IndexState σ :=
  match x.outcomes (x.schedule cs) s.compiler with
  | (none, compiler) => (.error (.fault .interrupted), { s with compiler })
  | (some os, compiler) =>
    let os := sortOutcomes (os.map (IndexOutcome.inRows s.db.cast))
    match s.db.commit os (x.breakdown number) with
    | .ok db => (.ok os, ⟨db, compiler⟩)
    | .error f => (.error (.failure f), { s with compiler })

/-- Indexes chunk after chunk until `remaining` contracts are done or none is pending after `after`;
`number` counts the chunks. -/
def chunks (x : Indexer σ) (size : Nat) (remaining number : Nat) (after : String)
    (summary : IndexSummary) (s : IndexState σ) :
    Except (Stop StorageFailure) IndexSummary × IndexState σ :=
  if remaining = 0 then (.ok summary, s)
  else
    match s.db.fetchPending after (min size remaining : Nat) with
    | .error stop => (.error stop, s)
    | .ok [] => (.ok summary, s)
    | .ok (c :: cs) => match x.chunk number (c :: cs) s with
      | (.error stop, s) => (.error stop, s)
      | (.ok os, s) =>
        x.chunks size (remaining - (cs.length + 1)) (number + 1) ((c :: cs).getLast?.getD c).id
          (os.foldl IndexSummary.add summary) s
  termination_by remaining
  decreasing_by omega

/-- The statuses that a run moves back to pending first. -/
def resetStatuses (options : IndexOptions) : List ContractStatus :=
  if options.reindex then [.indexed, .failed] else if options.retryFailed then [.failed] else []

/-- The number of contracts that a run may index. -/
def budget (options : IndexOptions) (pending : Nat) : Nat :=
  match options.limit with
  | some limit => (min (pending : Int) limit).toNat
  | none => pending

/-- Why a run cannot start with some options. -/
def refusal? (options : IndexOptions) : Option Fault :=
  if options.chunkSize < 1 || options.workers < 1 then
    some (.badValue "chunk_size and workers must be positive")
  else if options.reindex && options.retryFailed then
    some (.badValue "reindex and retry_failed are mutually exclusive")
  else none

/-- Indexes pending contracts. -/
def index (x : Indexer σ) (options : IndexOptions) (s : IndexState σ) :
    Except (Stop StorageFailure) IndexSummary × IndexState σ :=
  match refusal? options with
  | some f => (.error (.fault f), s)
  | none =>
    let statuses := resetStatuses options
    let summary : IndexSummary := { reset := s.db.resetCount statuses }
    let db := s.db.reset statuses
    x.chunks options.chunkSize.toNat (budget options (db.count (some .pending))) 0 "" summary
      { s with db }

end Indexer

end SelectorCatalog
