import SelectorCatalog.Corpus.Reader
import SelectorCatalog.Database.Basic

/-!
# Loading a corpus

Records become contracts, which are stored chunk by chunk. A malformed record ends the loading, and
whole chunks stored before it stay; or it is counted and left out, if errors are to be ignored.
-/

set_option autoImplicit false

namespace SelectorCatalog

/-- What loading came to. -/
structure LoadSummary where
  seen : Nat := 0
  inserted : Nat := 0
  duplicates : Nat := 0
  failed : Nat := 0
  deriving DecidableEq, Inhabited

/-- How to load. -/
structure LoadOptions where
  chunkSize : Int := 500
  ignoreErrors : Bool := false

/-- The contract of a record that could be read. -/
def RawRecord.contract (r : RawRecord) : Except MalformedRecord Contract :=
  match r.payload with
  | .null => .error ⟨r.origin, .unreadable⟩
  | _ => r.normalize

/-- How far loading has come: what waits to be stored, the counts and the tables. -/
structure LoadState where
  waiting : List Contract := []
  summary : LoadSummary := {}
  db : Database

namespace LoadState

/-- Stores what waits. -/
def flush (s : LoadState) : LoadState :=
  let added := s.db.addedBy s.waiting
  { waiting := []
    summary := { s.summary with
      inserted := s.summary.inserted + added
      duplicates := s.summary.duplicates + (s.waiting.length - added) }
    db := s.db.store s.waiting }

/-- Stores what waits if it fills a chunk. -/
def flushFull (chunk : Nat) (s : LoadState) : LoadState :=
  if s.waiting.length < chunk then s else s.flush

/-- Takes in a contract. -/
def take (chunk : Nat) (s : LoadState) (c : Contract) : LoadState :=
  { s with waiting := s.waiting ++ [c] }.flushFull chunk

/-- Counts a record. -/
def see (s : LoadState) :
    LoadState := { s with summary := { s.summary with seen := s.summary.seen + 1 } }

/-- Counts a malformed record. -/
def leaveOut (s : LoadState) : LoadState :=
  { s with summary := { s.summary with failed := s.summary.failed + 1 } }

/-- Takes in records one after the other. -/
def takeAll (chunk : Nat) (ignoreErrors : Bool) :
    List RawRecord → LoadState → Except MalformedRecord Unit × LoadState
  | [], s => (.ok (), s)
  | r :: rest, s => match r.contract with
    | .ok c => takeAll chunk ignoreErrors rest (s.see.take chunk c)
    | .error m =>
      if ignoreErrors then takeAll chunk ignoreErrors rest s.see.leaveOut
      else (.error m, s.see.leaveOut)

end LoadState

namespace Database

/-- Loads the records of a corpus. -/
def load (db : Database) (options : LoadOptions) (corpus : CorpusStream) :
    Except (Stop MalformedRecord) LoadSummary × Database :=
  if options.chunkSize < 1 then
    (.error (.fault (.badValue "chunk_size must be positive")), db)
  else
    match LoadState.takeAll options.chunkSize.toNat options.ignoreErrors corpus.records ⟨[],
      {}, db⟩ with
    | (.error m, s) => (.error (.failure m), s.db)
    | (.ok (), s) => match corpus.stop with
      | some f => (.error (.fault f), s.db)
      | none => (.ok s.flush.summary, s.flush.db)

end Database

end SelectorCatalog
