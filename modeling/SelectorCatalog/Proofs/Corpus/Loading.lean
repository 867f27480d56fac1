import SelectorCatalog.Proofs.Corpus.Batches
import SelectorCatalog.Proofs.Indexing.Reachable

/-!
# What loading a corpus comes to

Loading that goes to its end stores the contracts of the corpus, first come first kept, however it
is cut into chunks (`Database.load_complete`); taken up again it changes nothing
(`Database.load_first_wins`). A malformed record ends strict loading: whole chunks before it stay,
and loading what is sound afterwards ends in the tables of an undisturbed loading
(`Database.load_strict`).
-/

set_option autoImplicit false

namespace SelectorCatalog

/-- A folder that could not be read. -/
def RawRecord.lostFolder : RawRecord := ⟨.folder, "lost", .null⟩

namespace Database

open RawRecord (contractsOf countMalformed)

/-- What loading counts when it goes to its end. -/
def loadSummary (db : Database) (records : List RawRecord) : LoadSummary where
  seen := records.length
  inserted := db.addedBy (contractsOf records)
  duplicates := (contractsOf records).length - db.addedBy (contractsOf records)
  failed := countMalformed records

theorem loadSummary_balanced (db : Database) (records : List RawRecord) :
    let s := db.loadSummary records
    s.seen = s.inserted + s.duplicates + s.failed := by
  have few := db.addedBy_le (contractsOf records)
  have all := RawRecord.length_contractsOf records
  simp only [loadSummary]
  omega

theorem flush_gather_nothing (db : Database) (records : List RawRecord) :
    (LoadState.gather records ⟨[], {}, db⟩).flush =
      ⟨[], db.loadSummary records, db.store (contractsOf records)⟩ := by
  simp [LoadState.gather, LoadState.flush, loadSummary]

/-! ## How loading ends -/

section

variable {options : LoadOptions} (positive : 1 ≤ options.chunkSize)

include positive

/-- **Loading stores the contracts of the records**, whatever the chunks are, if errors are ignored
or there are none. -/
theorem load_complete {records : List RawRecord}
    (fine : options.ignoreErrors = true ∨ ∀ r ∈ records, r.isSound) (db : Database) :
    db.load options ⟨records,
      none⟩ = (.ok (db.loadSummary records), db.store (contractsOf records)) := by
  have taken : LoadState.takeAll options.chunkSize.toNat options.ignoreErrors records ⟨[], {}, db⟩ =
      (.ok (), LoadState.takeRecords options.chunkSize.toNat records ⟨[], {}, db⟩) := by
    rcases fine with ignoring | sound
    · rw [ignoring, LoadState.takeAll_ignoring]
    · have all := @LoadState.takeAll_sound options.chunkSize.toNat ⟨[], {},
        db⟩ options.ignoreErrors records sound []
      rwa [List.append_nil] at all
  rw [load, if_neg (by omega)]
  simp only [taken, LoadState.flush_takeRecords, flush_gather_nothing]

/-- The contracts of whole chunks, which are stored when loading is cut off. -/
theorem takeRecords_db (db : Database) (records : List RawRecord) :
    (LoadState.takeRecords options.chunkSize.toNat records ⟨[], {}, db⟩).db =
      db.store ((contractsOf records).take
        ((contractsOf records).length / options.chunkSize.toNat * options.chunkSize.toNat)) := by
  have few : ([] : List Contract).length < options.chunkSize.toNat := by
    rw [List.length_nil]
    omega
  exact (LoadState.takeRecords_chunks (s := ⟨[], {}, db⟩) records few).1

/-- **A fault of the corpus cuts loading off**, and whole chunks stay. -/
theorem load_cut_off (ignoring : options.ignoreErrors = true) (db : Database)
    (records : List RawRecord) (f : Fault) :
    db.load options ⟨records, some f⟩ = (.error (.fault f), db.store ((contractsOf records).take
      ((contractsOf records).length / options.chunkSize.toNat * options.chunkSize.toNat))) := by
  rw [load, if_neg (by omega)]
  simp only [ignoring, LoadState.takeAll_ignoring, takeRecords_db positive]

/-- **A malformed record ends strict loading**, and whole chunks stay. -/
theorem load_malformed (strict : options.ignoreErrors = false) (db : Database)
    {before : List RawRecord} (sound : ∀ r ∈ before, r.isSound) {bad : RawRecord}
    {m : MalformedRecord} (malformed : bad.contract = .error m) (after : List RawRecord)
    (stop : Option Fault) :
    db.load options ⟨before ++ bad :: after, stop⟩ =
      (.error (.failure m), db.store ((contractsOf before).take
        ((contractsOf before).length / options.chunkSize.toNat * options.chunkSize.toNat))) := by
  rw [load, if_neg (by omega)]
  simp only [strict, LoadState.takeAll_strict sound malformed]
  exact congrArg _ (takeRecords_db positive db before)

end

/-! ## Errors ignored -/

/-- **Loading is a first-wins load**: with errors ignored, rows are added for the ids that are new,
each of the first record that gives a contract of this id, and nothing else changes. Neither the
tables nor the counts depend on the chunks, and loading the same records again changes nothing. -/
theorem load_first_wins (db : Database) (records : List RawRecord) :
    ∃ (rows : List ContractRow) (summary : LoadSummary),
      let loaded : Database := { db with contracts := db.contracts ++ rows }
      (∀ chunk : Int, 1 ≤ chunk →
        db.load { chunkSize := chunk, ignoreErrors := true } ⟨records,
          none⟩ = (.ok summary, loaded)) ∧
      (db.NewRows (contractsOf records) rows ∧ ∀ row ∈ rows,
        row.status = ContractStatus.pending.label) ∧
      (summary.seen = records.length ∧ summary.failed = countMalformed records ∧
        summary.inserted = rows.length ∧
        summary.seen = summary.inserted + summary.duplicates + summary.failed) ∧
      ∀ chunk : Int, 1 ≤ chunk → ∃ again : LoadSummary,
        loaded.load { chunkSize := chunk, ignoreErrors := true } ⟨records,
        none⟩ = (.ok again, loaded) ∧
        again.inserted = 0 ∧ again.seen = summary.seen ∧ again.failed = summary.failed := by
  obtain ⟨rows, added, stored⟩ := db.store_eq (contractsOf records)
  refine ⟨rows, db.loadSummary records, ?_⟩
  dsimp only
  rw [← stored]
  refine ⟨fun chunk positive => load_complete positive (.inl rfl) db, ⟨added, fun row mem => ?_⟩,
    ⟨rfl, rfl, addedBy_eq_length stored, db.loadSummary_balanced records⟩, fun chunk positive => ?_⟩
  · obtain ⟨-, c, -, rfl⟩ := (added.mem_iff row).1 mem
    rfl
  · refine ⟨(db.store (contractsOf records)).loadSummary records, ?_, db.addedBy_again _, rfl, rfl⟩
    rw [load_complete positive (.inl rfl), store_again db (List.Subset.refl _)]

/-- A corpus that holds a folder twice and an unreadable one between the two. -/
def repeatedFolder : List RawRecord :=
  [.emptyFolder "A", .lostFolder, .emptyFolder "A", .emptyFolder "B"]

/-- The repeated folder is counted, and both contracts get a row. -/
theorem load_repeatedFolder :
    ∃ (rows : List ContractRow) (summary : LoadSummary),
      (1 : Int) ≤ 2 ∧
      ({} : Database).load { chunkSize := 2, ignoreErrors := true } ⟨repeatedFolder, none⟩ =
        (.ok summary, { contracts := rows }) ∧
      summary.seen = 4 ∧ summary.failed = 1 ∧
      .ofContract .plain (.ofEmptyFolder "A") ∈ rows ∧
      .ofContract .plain (.ofEmptyFolder "B") ∈ rows := by
  obtain ⟨rows, summary, loads, ⟨added, -⟩, ⟨seen, failed, -⟩, -⟩ :=
    load_first_wins {} repeatedFolder
  have found : contractsOf repeatedFolder = [.ofEmptyFolder "A", .ofEmptyFolder "A",
      .ofEmptyFolder "B"] :=
    rfl
  rw [found] at added
  refine ⟨rows, summary, by decide, loads 2 (by decide), seen, failed, ?_, ?_⟩
  · exact (added.mem_iff _).2 ⟨rfl, _,
      List.find?_cons_of_pos (by simp [ContractRow.ofContract]), rfl⟩
  · refine (added.mem_iff _).2 ⟨rfl, .ofEmptyFolder "B", ?_, rfl⟩
    simp [ContractRow.ofContract, id_ofEmptyFolder_ne]

/-! ## Errors not ignored -/

/-- **Strict loading ends at the first malformed record** and keeps exactly the whole chunks before
it. Loading the sound records afterwards ends in the tables of one undisturbed loading of them. -/
theorem load_strict (db : Database) {before : List RawRecord} (sound : ∀ r ∈ before, r.isSound)
    {bad : RawRecord} {m : MalformedRecord} (malformed : bad.contract = .error m)
    (after : List RawRecord) (stop : Option Fault) {chunk : Nat} (positive : 0 < chunk) :
    let stopped :=
  db.load { chunkSize := chunk, ignoreErrors := false } ⟨before ++ bad :: after, stop⟩
    let rest := (before ++ bad :: after).filter RawRecord.isSound
    stopped = (.error (.failure m),
      db.store ((contractsOf before).take (before.length / chunk * chunk))) ∧
    ∀ again clean : LoadOptions, 1 ≤ again.chunkSize → 1 ≤ clean.chunkSize →
      ∃ first second : LoadSummary, ∃ loaded : Database,
        stopped.2.load again ⟨rest, none⟩ = (.ok first, loaded) ∧
        db.load clean ⟨rest, none⟩ = (.ok second, loaded) := by
  intro stopped rest
  have length : (contractsOf before).length = before.length := by
    have counted := RawRecord.length_contractsOf before
    have none_bad : countMalformed before = 0 := by
      simpa [countMalformed, List.countP_eq_zero] using sound
    omega
  have ended : stopped = (.error (.failure m),
      db.store ((contractsOf before).take (before.length / chunk * chunk))) := by
    have cut :=
      @load_malformed ⟨chunk, false⟩ (Int.natCast_pos.2 positive) rfl db before sound bad m
      malformed after stop
    simpa [length] using cut
  -- What was stored before the malformed record comes first in what is stored afterwards.
  have found : contractsOf rest = (contractsOf before).take (before.length / chunk * chunk) ++
      ((contractsOf before).drop (before.length / chunk * chunk) ++ contractsOf after) := by
    rw [RawRecord.contractsOf_filter_isSound, RawRecord.contractsOf_append,
      RawRecord.contractsOf_cons_error malformed, ← List.append_assoc, List.take_append_drop]
  have same : stopped.2.store (contractsOf rest) = db.store (contractsOf rest) := by
    rw [ended, found, store_prefix_again]
  have all_sound : ∀ r ∈ rest, r.isSound := fun r mem => (List.mem_filter.1 mem).2
  refine ⟨ended, fun again clean again_positive clean_positive => ?_⟩
  refine ⟨stopped.2.loadSummary rest, db.loadSummary rest, db.store (contractsOf rest), ?_, ?_⟩
  · rw [← same]
    exact load_complete again_positive (.inr all_sound) stopped.2
  · exact load_complete clean_positive (.inr all_sound) db

/-- The third folder waits when the lost one ends the loading, and comes in afterwards. -/
theorem load_strict_lostFolder :
    (∀ r ∈ [RawRecord.emptyFolder "A", .emptyFolder "B", .emptyFolder "A"], r.isSound) ∧
    RawRecord.lostFolder.contract = .error ⟨"lost", .unreadable⟩ ∧
    let stopped := ({} : Database).load { chunkSize := 2 }
      ⟨[.emptyFolder "A", .emptyFolder "B", .emptyFolder "A", .lostFolder, .emptyFolder "B"], none⟩
    stopped = (.error (.failure ⟨"lost", .unreadable⟩),
      ({} : Database).store [.ofEmptyFolder "A", .ofEmptyFolder "B"]) ∧
    ∃ first second : LoadSummary, ∃ loaded : Database,
      stopped.2.load {} ⟨[.emptyFolder "A", .emptyFolder "B", .emptyFolder "A", .emptyFolder "B"],
      none⟩ =
        (.ok first, loaded) ∧
      ({} : Database).load {} ⟨[.emptyFolder "A", .emptyFolder "B", .emptyFolder "A",
        .emptyFolder "B"], none⟩ = (.ok second, loaded) := by
  have sound : ∀ r ∈ [RawRecord.emptyFolder "A", .emptyFolder "B",
      .emptyFolder "A"], r.isSound := by
    simp only [List.forall_mem_cons, List.not_mem_nil, false_implies, implies_true, and_true]
    exact ⟨rfl, rfl, rfl⟩
  have malformed : RawRecord.lostFolder.contract = .error ⟨"lost", .unreadable⟩ := rfl
  obtain ⟨ended, resumes⟩ :=
    load_strict {} sound malformed [.emptyFolder "B"] none (by decide : 0 < 2)
  exact ⟨sound, malformed, ended, resumes {} {} (by decide) (by decide)⟩

end Database

end SelectorCatalog
