import SelectorCatalog.Corpus.Load
import SelectorCatalog.Proofs.Database.Storing
import SelectorCatalog.Proofs.Steps

/-!
# Contracts that wait to be stored

While records are taken in, the contracts of whole chunks are in the tables and the others wait
(`LoadState.takeRecords_chunks`). When contracts are stored makes no difference in the end
(`LoadState.flush_takeRecords`): storing all that waits gives the tables and the counts that storing
everything at once would have given.
-/

set_option autoImplicit false

namespace SelectorCatalog

namespace RawRecord

/-- Whether a record gives a contract. -/
def isSound (r : RawRecord) : Bool := r.contract.isOk

/-- The contracts that records give, in order. -/
def contractsOf (records : List RawRecord) :
    List Contract := records.filterMap fun r => r.contract.toOption

/-- How many records are unreadable or malformed. -/
def countMalformed (records : List RawRecord) : Nat := records.countP fun r => !r.isSound

variable {r : RawRecord} {c : Contract} {m : MalformedRecord}

theorem contractsOf_cons_ok (h : r.contract = .ok c) (rest : List RawRecord) :
    contractsOf (r :: rest) = c :: contractsOf rest := by
  simp [contractsOf, h, Except.toOption]

theorem contractsOf_cons_error (h : r.contract = .error m) (rest : List RawRecord) :
    contractsOf (r :: rest) = contractsOf rest := by
  simp [contractsOf, h, Except.toOption]

theorem contractsOf_append (as bs : List RawRecord) :
    contractsOf (as ++ bs) = contractsOf as ++ contractsOf bs :=
  List.filterMap_append

theorem mem_contractsOf {records : List RawRecord} :
    c ∈ contractsOf records ↔ ∃ r ∈ records, r.contract = .ok c := by
  rw [contractsOf, List.mem_filterMap]
  refine exists_congr fun r => and_congr_right fun _ => ⟨ok_of_toOption, fun h => ?_⟩
  rw [h]
  rfl

theorem countMalformed_cons_ok (h : r.contract = .ok c) (rest : List RawRecord) :
    countMalformed (r :: rest) = countMalformed rest := by
  simp [countMalformed, isSound, h, Except.isOk, Except.toBool]

theorem countMalformed_cons_error (h : r.contract = .error m) (rest : List RawRecord) :
    countMalformed (r :: rest) = countMalformed rest + 1 := by
  simp [countMalformed, isSound, h, Except.isOk, Except.toBool]

theorem length_contractsOf (records : List RawRecord) :
    (contractsOf records).length + countMalformed records = records.length := by
  induction records with
  | nil => rfl
  | cons r rest ih =>
    cases read : r.contract with
    | ok c =>
      rw [contractsOf_cons_ok read, countMalformed_cons_ok read, List.length_cons, List.length_cons]
      omega
    | error m =>
      rw [contractsOf_cons_error read, countMalformed_cons_error read, List.length_cons]
      omega

theorem contractsOf_filter_isSound (records : List RawRecord) :
    contractsOf (records.filter isSound) = contractsOf records := by
  rw [contractsOf, contractsOf, List.filterMap_filter]
  congr
  funext r
  cases read : r.contract <;> simp [isSound, read, Except.isOk, Except.toBool, Except.toOption]

end RawRecord

namespace LoadState

open RawRecord (contractsOf countMalformed)

/-! ## Records one after the other -/

/-- Takes in a record; a malformed one is counted and left out. -/
def takeRecord (chunk : Nat) (s : LoadState) (r : RawRecord) : LoadState :=
  match r.contract with
  | .ok c => s.see.take chunk c
  | .error _ => s.see.leaveOut

/-- Takes in records. -/
def takeRecords (chunk : Nat) (records : List RawRecord) (s : LoadState) : LoadState :=
  records.foldl (takeRecord chunk) s

variable {chunk : Nat} {s : LoadState} {r : RawRecord} {c : Contract} {m : MalformedRecord}

theorem takeRecord_ok (h : r.contract = .ok c) : s.takeRecord chunk r = s.see.take chunk c := by
  simp only [takeRecord, h]

theorem takeRecord_error (h : r.contract = .error m) : s.takeRecord chunk r = s.see.leaveOut := by
  simp only [takeRecord, h]

theorem takeRecords_cons (r : RawRecord) (rest : List RawRecord) :
    s.takeRecords chunk (r :: rest) = (s.takeRecord chunk r).takeRecords chunk rest := rfl

theorem takeAll_ignoring (records : List RawRecord) :
    takeAll chunk true records s = (.ok (), s.takeRecords chunk records) := by
  induction records generalizing s with
  | nil => rfl
  | cons r rest ih =>
    rw [takeAll, takeRecords_cons]
    split
    · rename_i read
      rw [takeRecord_ok read, ih]
    · rename_i read
      rw [if_pos rfl, takeRecord_error read, ih]

theorem takeAll_sound (ignoreErrors : Bool) {records : List RawRecord}
    (sound : ∀ r ∈ records, r.isSound) (rest : List RawRecord) :
    takeAll chunk ignoreErrors (records ++ rest) s =
      takeAll chunk ignoreErrors rest (s.takeRecords chunk records) := by
  induction records generalizing s with
  | nil => rfl
  | cons r more ih =>
    have ⟨first, others⟩ := List.forall_mem_cons.1 sound
    cases read : r.contract with
    | error m => simp [RawRecord.isSound, read, Except.isOk, Except.toBool] at first
    | ok c =>
      rw [List.cons_append, takeAll, takeRecords_cons, takeRecord_ok read]
      simp only [read]
      exact ih others

/-- The first malformed record ends strict loading. -/
theorem takeAll_strict {records : List RawRecord} (sound : ∀ r ∈ records, r.isSound)
    (malformed : r.contract = .error m) (rest : List RawRecord) :
    takeAll chunk false (records ++ r :: rest) s =
      (.error m, (s.takeRecords chunk records).see.leaveOut) := by
  rw [takeAll_sound false sound, takeAll]
  simp only [malformed, Bool.false_eq_true, if_false]

/-! ## When contracts are stored -/

/-- What has come in if nothing of the records is stored yet. -/
def gather (records : List RawRecord) (s : LoadState) : LoadState where
  waiting := s.waiting ++ contractsOf records
  summary := { s.summary with
    seen := s.summary.seen + records.length
    failed := s.summary.failed + countMalformed records }
  db := s.db

/-- **Storing early makes no difference.** -/
theorem flush_gather_flush (records : List RawRecord) :
    (s.flush.gather records).flush = (s.gather records).flush := by
  have few := s.db.addedBy_le s.waiting
  have few_later := (s.db.store s.waiting).addedBy_le (contractsOf records)
  simp only [flush, gather, List.nil_append, List.length_append, Database.addedBy_append,
    Database.store_append, mk.injEq, LoadSummary.mk.injEq, true_and, and_true]
  omega

theorem flush_gather_flushFull (records : List RawRecord) :
    ((s.flushFull chunk).gather records).flush = (s.gather records).flush := by
  unfold flushFull
  split
  · rfl
  · exact flush_gather_flush records

theorem flush_gather_takeRecord (r : RawRecord) (rest : List RawRecord) :
    ((s.takeRecord chunk r).gather rest).flush = (s.gather (r :: rest)).flush := by
  cases read : r.contract with
  | ok c =>
    rw [takeRecord_ok read, take, flush_gather_flushFull]
    simp [gather, see, RawRecord.contractsOf_cons_ok read, RawRecord.countMalformed_cons_ok read,
      Nat.add_assoc, Nat.add_comm 1]
  | error m =>
    rw [takeRecord_error read]
    simp [gather, see, leaveOut, RawRecord.contractsOf_cons_error read,
      RawRecord.countMalformed_cons_error read, Nat.add_assoc, Nat.add_comm 1]

/-- **After the last record it is as if everything had waited.** -/
theorem flush_takeRecords (records : List RawRecord) :
    (s.takeRecords chunk records).flush = (s.gather records).flush := by
  induction records generalizing s with
  | nil => simp [takeRecords, gather, contractsOf, countMalformed]
  | cons r rest ih => rw [takeRecords_cons, ih, flush_gather_takeRecord]

/-! ## Whole chunks -/

theorem wholeChunks_append {α : Type} {front : List α} (full : front.length = chunk)
    (positive : 0 < chunk) (rest : List α) :
    (front ++ rest).length / chunk * chunk = front.length + rest.length / chunk * chunk := by
  rw [List.length_append, full, Nat.add_div_left _ positive, Nat.succ_mul, Nat.add_comm]

/-- **What fills whole chunks is stored, and the rest waits.** -/
theorem takeRecords_chunks (records : List RawRecord) (open_chunk : s.waiting.length < chunk) :
    let all := s.waiting ++ contractsOf records
    let stored := all.length / chunk * chunk
    (s.takeRecords chunk records).db = s.db.store (all.take stored) ∧
      (s.takeRecords chunk records).waiting = all.drop stored := by
  induction records generalizing s with
  | nil => simp [takeRecords, contractsOf, Nat.div_eq_of_lt open_chunk, Database.store]
  | cons r rest ih =>
    rw [takeRecords_cons]
    cases read : r.contract with
    | error m =>
      rw [takeRecord_error read, RawRecord.contractsOf_cons_error read]
      exact ih open_chunk
    | ok c =>
      rw [takeRecord_ok read, RawRecord.contractsOf_cons_ok read, List.append_cons]
      by_cases more : s.waiting.length + 1 < chunk
      · have waits : s.see.take chunk c = { s.see with waiting := s.waiting ++ [c] } := by
          simp [take, flushFull, see, more]
        rw [waits]
        exact ih (by simpa using more)
      · -- The contract fills the chunk, which is stored as a whole.
        have full : (s.waiting ++ [c]).length = chunk := by
          simp only [List.length_append, List.length_singleton]
          omega
        have positive : 0 < chunk := by omega
        have goes : s.see.take chunk c =
            ({ s.see with waiting := s.waiting ++ [c] } : LoadState).flush := by
          simp [take, flushFull, see, more]
        have stored : (s.see.take chunk c).db = s.db.store (s.waiting ++ [c]) := by rw [goes]; rfl
        have emptied : (s.see.take chunk c).waiting = [] := by rw [goes]; rfl
        have later := ih (s := s.see.take chunk c) (by rw [emptied]; exact positive)
        simp only [stored, emptied, List.nil_append] at later
        dsimp only
        rw [wholeChunks_append full positive, List.take_length_add_append,
          List.drop_length_add_append, Database.store_append]
        exact later

end LoadState

end SelectorCatalog
