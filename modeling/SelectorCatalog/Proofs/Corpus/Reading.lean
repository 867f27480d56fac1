import SelectorCatalog.Proofs.Corpus.Loading
import SelectorCatalog.Proofs.Files.Listing
import SelectorCatalog.Proofs.Json.DistinctNames
import SelectorCatalog.Proofs.Text.Encoding

/-!
# What a corpus is read as

There is one record for each folder with metadata and for each answer of an explorer. A file that
may not be opened or is no document becomes a record without payload, and the bytes of sources do
not matter. Only two kinds of bytes stop the reading: those of no text, and those of an integer with
more digits than are read (`Corpus.IsUnreadable`); loading then ends with a fault, whatever is to be
ignored (`Corpus.reads_each_file`, `Corpus.load_stopped_by_byte`).
-/

set_option autoImplicit false

namespace SelectorCatalog

namespace Corpus

/-! ## The document in a file -/

/-- The text that the bytes of a file are read as. -/
def fileText (s : List Char) : String := String.ofList (Text.lineFeeds s)

/-- What is read of the bytes of a file, if it was opened. -/
inductive Holds : Option (List UInt8) → Option Value → Prop
  | document {content : List UInt8} {s : List Char} {v : Value} (bytes : content = Text.utf8 s)
      (read : Json.parse (fileText s) = .ok v) : Holds (some content) (some v)
  | nothing {content : List UInt8} {s : List Char} {message : String}
      (bytes : content = Text.utf8 s)
      (read : Json.parse (fileText s) = .error (.badDocument message)) : Holds (some content) none
  | closed : Holds none none

/-- The bytes of an opened file stop the reading: no text has them, or an integer in their text has
too many digits. -/
inductive IsUnreadable : Option (List UInt8) → Fault → Prop
  | encoding {content : List UInt8} (no_text : ∀ s, content ≠ Text.utf8 s) :
      IsUnreadable (some content) .badEncoding
  | digits {content : List UInt8} {s : List Char} {n : Nat} (bytes : content = Text.utf8 s)
      (long : Json.read (fileText s) = .error (.tooManyDigits n)) :
      IsUnreadable (some content) (.tooManyDigits n)

theorem textOf_utf8 (s : List Char) : textOf (Text.utf8 s) = .ok (fileText s) := by
  rw [textOf, Text.decode?_eq_some_iff.2 rfl]
  rfl

theorem textOf_error {content : List UInt8} (no_text : ∀ s, content ≠ Text.utf8 s) :
    textOf content = .error .badEncoding := by
  cases read : Text.decode? content with
  | some s => exact absurd (Text.decode?_eq_some_iff.1 read) (no_text s)
  | none => rw [textOf, read]

theorem documentOf_utf8 (s : List Char) :
    documentOf (some (Text.utf8 s)) = match Json.parse (fileText s) with
      | .ok v => .ok (some v)
      | .error (.badDocument _) => .ok none
      | .error f => .error f := by
  simp only [documentOf, textOf_utf8]
  show (match Json.parse (fileText s) with
    | .ok v => pure (some v)
    | .error (.badDocument _) => pure none
    | .error f => throw f) = _
  split <;> rfl

variable {content? : Option (List UInt8)}

theorem Holds.documentOf {document? : Option Value} (h : Holds content? document?) :
    documentOf content? = .ok document? := by
  cases h with
  | document bytes read => rw [bytes, documentOf_utf8, read]
  | nothing bytes read => rw [bytes, documentOf_utf8, read]
  | closed => rfl

theorem IsUnreadable.documentOf {f : Fault} (h : IsUnreadable content? f) :
    documentOf content? = .error f := by
  cases h with
  | encoding no_text =>
    simp only [Corpus.documentOf, textOf_error no_text]
    rfl
  | digits bytes long =>
    rw [bytes, documentOf_utf8, Json.parse, long]
    rfl

/-- **A file holds a document, holds none, or stops the reading.** -/
theorem holds_or_isUnreadable (content? : Option (List UInt8)) :
    (∃ document?, Holds content? document?) ∨ ∃ f, IsUnreadable content? f := by
  cases content? with
  | none => exact .inl ⟨none, .closed⟩
  | some content =>
  by_cases text : ∃ s, content = Text.utf8 s
  · obtain ⟨s, bytes⟩ := text
    cases read : Json.read (fileText s) with
    | ok v => exact .inl ⟨some v, .document bytes (by rw [Json.parse, read]; rfl)⟩
    | error e =>
      cases e with
      | malformed what place => exact .inl ⟨none, .nothing bytes (by rw [Json.parse, read]; rfl)⟩
      | tooManyDigits n => exact .inr ⟨_, .digits bytes read⟩
  · exact .inr ⟨_, .encoding (not_exists.1 text)⟩

theorem documentOf_eq_ok {document? : Option Value} :
    Corpus.documentOf content? = .ok document? ↔ Holds content? document? := by
  refine ⟨fun read => ?_, Holds.documentOf⟩
  obtain ⟨found, holds⟩ | ⟨f, unreadable⟩ := holds_or_isUnreadable content?
  · cases holds.documentOf.symm.trans read
    exact holds
  · cases unreadable.documentOf.symm.trans read

theorem documentOf_eq_error {f : Fault} :
    Corpus.documentOf content? = .error f ↔ IsUnreadable content? f := by
  refine ⟨fun read => ?_, IsUnreadable.documentOf⟩
  obtain ⟨found, holds⟩ | ⟨g, unreadable⟩ := holds_or_isUnreadable content?
  · cases holds.documentOf.symm.trans read
  · cases unreadable.documentOf.symm.trans read
    exact unreadable

end Corpus

/-! ## Records in order -/

namespace CorpusStream

open Corpus (IsUnreadable)

/-- The records are those of files in order, one each, up to the first whose bytes stop the
reading. -/
structure IsReadingOf {α : Type} (s : CorpusStream) (files : List α)
    (bytes : α → Option (List UInt8)) (IsRecord : α → RawRecord → Prop) : Prop where
  whole : (∀ x ∈ files, ∀ f, ¬IsUnreadable (bytes x) f) →
    s.stop = none ∧ List.Forall₂ IsRecord files s.records
  cut : ∀ before x after f, files = before ++ x :: after →
    (∀ y ∈ before, ∀ g, ¬IsUnreadable (bytes y) g) → IsUnreadable (bytes x) f →
    s.stop = some f ∧ List.Forall₂ IsRecord before s.records

variable {α : Type} {bytes : α → Option (List UInt8)} {IsRecord : α → RawRecord → Prop}
  {read : α → Except Fault RawRecord}

theorem ofReadings_append {before : List α} (readable : ∀ x r, read x = .ok r → IsRecord x r)
    (fine : ∀ x ∈ before, ∀ f, read x ≠ .error f) (later : List (Except Fault RawRecord)) :
    ∃ records, List.Forall₂ IsRecord before records ∧
      ofReadings (before.map read ++ later) =
        ⟨records ++ (ofReadings later).records, (ofReadings later).stop⟩ := by
  induction before with
  | nil => exact ⟨[], .nil, rfl⟩
  | cons x rest ih =>
    rw [List.forall_mem_cons] at fine
    obtain ⟨records, each, same⟩ := ih fine.2
    cases first : read x with
    | error f => exact absurd first (fine.1 f)
    | ok r =>
      refine ⟨r :: records, .cons (readable x r first) each, ?_⟩
      rw [List.map_cons, List.cons_append, first, ofReadings, same]
      rfl

theorem isReadingOf_ofReadings (readable : ∀ x r, read x = .ok r → IsRecord x r)
    (unreadable : ∀ x f, read x = .error f ↔ IsUnreadable (bytes x) f) (files : List α) :
    (ofReadings (files.map read)).IsReadingOf files bytes IsRecord := by
  refine ⟨fun fine => ?_, fun before x after f split fine bad => ?_⟩
  · obtain ⟨records, each, same⟩ := ofReadings_append readable
      (fun x mem f => mt (unreadable x f).1 (fine x mem f)) []
    rw [List.append_nil] at same
    rw [same]
    exact ⟨rfl, by simpa [ofReadings] using each⟩
  · obtain ⟨records, each, same⟩ := ofReadings_append readable
      (fun y mem g => mt (unreadable y g).1 (fine y mem g)) (read x :: after.map read)
    rw [split, List.map_append, List.map_cons, same, (unreadable x f).2 bad]
    exact ⟨rfl, by simpa [ofReadings] using each⟩

end CorpusStream

namespace Corpus

variable {t : Tree} {l : Location}

/-! ## Files of a listing -/

section

variable {β : Type} {under : List (List String × Entry)}
  {pick : List String × Entry → Option (β × List UInt8)} (place : β → List String)

/-- What is picked of a listing are files, each with a key that tells its place. -/
theorem mem_picked (picks : ∀ x y, pick x = some y ↔ x = (place y.1, .file y.2)) {key : β}
    {content : List UInt8} :
    (key, content) ∈ under.filterMap pick ↔ (place key, .file content) ∈ under := by
  simp only [List.mem_filterMap, picks, exists_eq_right]

theorem nodup_picked (picks : ∀ x y, pick x = some y → x = (place y.1, .file y.2))
    (distinct : (under.map Prod.fst).Nodup) : ((under.filterMap pick).map Prod.fst).Nodup := by
  refine List.pairwise_map.2 ((List.pairwise_map.1 distinct).filterMap pick ?_)
  intro a b other x hx y hy same
  rw [picks a x hx, picks b y hy, same] at other
  exact other rfl

end

/-- The file of a folder. -/
theorem picks_filesIn (folder : List String) (x : List String × Entry) (y : String × List UInt8) :
    (match x.1.getLast?, x.2 with
      | some name, .file content => if x.1.dropLast = folder then some (name, content) else none
      | _, _ => none) = some y ↔ x = (folder ++ [y.1], .file y.2) := by
  constructor
  · intro shown
    split at shown
    · rename_i last content last_eq entry_eq
      rw [Option.ite_none_right_eq_some, Option.some.injEq] at shown
      obtain ⟨rfl, rfl⟩ := shown
      obtain ⟨front, same⟩ := List.getLast?_eq_some_iff.1 last_eq
      ext1
      · simp [same]
      · exact entry_eq
    · cases shown
  · rintro rfl
    simp

/-- The metadata of a folder. -/
theorem picks_folders (x : List String × Entry) (y : List String × List UInt8) :
    (match x.2 with
      | .file content => if x.1.getLast? = some metadataName then
          some (x.1.dropLast, content) else none
      | .directory => none) = some y ↔ x = (y.1 ++ [metadataName], .file y.2) := by
  constructor
  · intro shown
    split at shown
    · rename_i content entry_eq
      rw [Option.ite_none_right_eq_some, Option.some.injEq] at shown
      obtain ⟨last_eq, rfl⟩ := shown
      obtain ⟨front, same⟩ := List.getLast?_eq_some_iff.1 last_eq
      ext1
      · simp [same]
      · exact entry_eq
    · cases shown
  · rintro rfl
    simp

theorem mem_filesIn (listed : t.IsWellFormed) {folder : List String} {name : String}
    {content : List UInt8} :
    (name, content) ∈ filesIn folder (t.below l) ↔
      t.at? (l ++ folder ++ [name]) = some (.file content) := by
  refine (mem_picked (folder ++ [·]) (picks_filesIn folder)).trans ?_
  rw [listed.file_mem_below, List.append_assoc]
  simp

theorem nodup_filesIn (listed : t.IsWellFormed) (folder : List String) :
    ((filesIn folder (t.below l)).map Prod.fst).Nodup :=
  nodup_picked (folder ++ [·]) (fun x y => (picks_filesIn folder x y).1) (listed.nodup_below l)

theorem mem_folders (listed : t.IsWellFormed) {names : List String} {content : List UInt8} :
    (names, content) ∈ folderRecords.folders (t.below l) ↔
      t.at? (l ++ names ++ [metadataName]) = some (.file content) := by
  rw [folderRecords.folders, List.mem_mergeSort]
  refine (mem_picked (· ++ [metadataName]) picks_folders).trans ?_
  rw [listed.file_mem_below, List.append_assoc]
  simp

theorem nodup_folders (listed : t.IsWellFormed) :
    ((folderRecords.folders (t.below l)).map Prod.fst).Nodup := by
  rw [folderRecords.folders, ((List.mergeSort_perm _ _).map Prod.fst).nodup_iff]
  exact nodup_picked (· ++ [metadataName]) (fun x y => (picks_folders x y).1) (listed.nodup_below l)

/-! ## Folders -/

/-- A source of the folder at a location may not be opened. -/
def HasClosedSource (t : Tree) (folder : Location) : Prop :=
  ∃ name content, isSource name = true ∧ t.at? (folder ++ [name]) = some (.file content) ∧
    t.opened (folder ++ [name]) content = none

/-- The bytes of the metadata of a folder below a location, if they may be opened. -/
def metadataIn (t : Tree) (l : Location) (folder : List String × List UInt8) :
    Option (List UInt8) :=
  t.opened (l ++ folder.1 ++ [metadataName]) folder.2

/-- The record of a folder below a location: its document beside its sources, whatever their bytes
are, or nothing if it holds no document or a source of it may not be opened. -/
structure IsFolderRecord (t : Tree) (root : String) (l : Location)
    (folder : List String × List UInt8) (r : RawRecord) : Prop where
  kind : r.kind = .folder
  origin : r.origin = ((Path.ofText root).join ⟨.relative, folder.1⟩).render
  payload : (Holds (metadataIn t l folder) none ∨ HasClosedSource t (l ++ folder.1)) ∧
    r.payload = .null ∨
    ¬HasClosedSource t (l ++ folder.1) ∧
    ∃ document sources, Holds (metadataIn t l folder) (some document) ∧
      r.payload = .object [("metadata", document), ("files", .object sources)] ∧
      (sources.map Prod.fst).Nodup ∧
      ∀ name v, (name, v) ∈ sources ↔ isSource name = true ∧
        ∃ content, t.at? (l ++ folder.1 ++ [name]) = some (.file content) ∧
          v = .text (lenientText content)

theorem folderRecord_eq (origin : Path) (metadata : Option (List UInt8))
    (files : List (String × Option (List UInt8))) :
    folderRecord origin metadata files = (documentOf metadata).map fun document? =>
      ⟨.folder, origin.render, match document?, sourcesOf files with
        | some document, some sources => .object [("metadata", document),
            ("files", .object sources)]
        | _, _ => .null⟩ := by
  unfold folderRecord
  cases documentOf metadata with
  | error f => rfl
  | ok document? => cases document? <;> cases sourcesOf files <;> rfl

theorem opened_cases (t : Tree) (l : Location) (content : List UInt8) :
    t.opened l content = none ∨ t.opened l content = some content := by
  unfold Tree.opened
  split
  · exact .inl rfl
  · exact .inr rfl

theorem sourcesOf_eq_none {files : List (String × List UInt8)} :
    sourcesOf (openedFiles t l files) = none ↔
      ∃ f ∈ files, isSource f.1 = true ∧ t.opened (l ++ [f.1]) f.2 = none := by
  rw [sourcesOf, ite_eq_left_iff]
  simp [openedFiles]

section

variable {files : List (String × List UInt8)} {sources : List (String × Value)}
  (read : sourcesOf (openedFiles t l files) = some sources)

include read

theorem opened_of_sourcesOf {f : String × List UInt8} (mem : f ∈ files)
    (source : isSource f.1 = true) : t.opened (l ++ [f.1]) f.2 = some f.2 := by
  refine (opened_cases t _ f.2).resolve_left fun shut => ?_
  rw [sourcesOf_eq_none.2 ⟨f, mem, source, shut⟩] at read
  cases read

/-- The sources that are read are all that there are. -/
theorem eq_of_sourcesOf :
    sources = (files.filter fun f => isSource f.1).map fun f => (f.1, .text (lenientText f.2)) := by
  have each : ∀ f ∈ files.filter fun f => isSource f.1,
      (t.opened (l ++ [f.1]) f.2).map (fun content => (f.1, Value.text (lenientText content))) =
        some (f.1, .text (lenientText f.2)) := by
    intro f mem
    obtain ⟨listed, source⟩ := List.mem_filter.1 mem
    rw [opened_of_sourcesOf read listed source, Option.map_some]
  unfold sourcesOf at read
  rw [Option.ite_none_left_eq_some, Option.some.injEq, openedFiles, List.filter_map] at read
  obtain ⟨-, rfl⟩ := read
  rw [List.filterMap_map, ← List.filterMap_eq_map']
  exact List.filterMap_congr each

theorem nodup_sourcesOf (distinct : (files.map Prod.fst).Nodup) : (sources.map Prod.fst).Nodup := by
  rw [eq_of_sourcesOf read, List.map_map]
  exact distinct.sublist (List.filter_sublist.map Prod.fst)

end

/-- **A folder is read as its record, unless its metadata stops the reading.** -/
theorem isFolderRecord_of_folderRecord (listed : t.IsWellFormed) (root : String)
    {folder : List String × List UInt8} {r : RawRecord}
    (read : folderRecord ((Path.ofText root).join ⟨.relative, folder.1⟩) (metadataIn t l folder)
      (openedFiles t (l ++ folder.1) (filesIn folder.1 (t.below l))) = .ok r) :
    IsFolderRecord t root l folder r := by
  rw [folderRecord_eq] at read
  have closed_iff :
      sourcesOf (openedFiles t (l ++ folder.1) (filesIn folder.1 (t.below l))) = none ↔
      HasClosedSource t (l ++ folder.1) := by
    simp only [sourcesOf_eq_none, HasClosedSource, Prod.exists, mem_filesIn listed]
    exact exists₂_congr fun _ _ => and_left_comm
  cases holds : documentOf (metadataIn t l folder) with
  | error f =>
    rw [holds] at read
    cases read
  | ok document? =>
    rw [holds] at read
    cases read
    refine ⟨rfl, rfl, ?_⟩
    cases beside : sourcesOf (openedFiles t (l ++ folder.1) (filesIn folder.1 (t.below l))) with
    | none => exact .inl ⟨.inr (closed_iff.1 beside), by cases document? <;> rfl⟩
    | some sources =>
      cases document? with
      | none => exact .inl ⟨.inl (documentOf_eq_ok.1 holds), rfl⟩
      | some document =>
        have all_open : ¬HasClosedSource t (l ++ folder.1) := by simp [← closed_iff, beside]
        refine .inr ⟨all_open, document, sources, documentOf_eq_ok.1 holds, rfl,
          nodup_sourcesOf beside (nodup_filesIn listed folder.1), fun name v => ?_⟩
        rw [eq_of_sourcesOf beside]
        simp only [List.mem_map, List.mem_filter, Prod.mk.injEq, Prod.exists, mem_filesIn listed]
        constructor
        · rintro ⟨_, content, ⟨there, source⟩, rfl, rfl⟩
          exact ⟨source, content, there, rfl⟩
        · rintro ⟨source, content, there, rfl⟩
          exact ⟨name, content, ⟨there, source⟩, rfl, rfl⟩

theorem folderRecord_eq_error {origin : Path} {metadata : Option (List UInt8)}
    {files : List (String × Option (List UInt8))} {f : Fault} :
    folderRecord origin metadata files = .error f ↔ IsUnreadable metadata f := by
  rw [folderRecord_eq, ← documentOf_eq_error]
  cases documentOf metadata <;> simp [Except.map]

/-! ## Answers of an explorer -/

/-- The bytes of an answer below a location, if they may be opened. -/
def answerIn (t : Tree) (l : Location) (answer : List String × List UInt8) : Option (List UInt8) :=
  t.opened (l ++ answer.1) answer.2

/-- The record of an answer below a location. -/
structure IsAnswerRecord (t : Tree) (root : String) (l : Location)
    (answer : List String × List UInt8) (r : RawRecord) : Prop where
  kind : r.kind = .explorerAnswer
  origin : r.origin = ((Path.ofText root).join ⟨.relative, answer.1⟩).render
  payload : ∃ document?, Holds (answerIn t l answer) document? ∧ r.payload = document?.getD .null

theorem answerRecord_eq (origin : Path) (content? : Option (List UInt8)) :
    answerRecord origin content? = (documentOf content?).map fun document? =>
      ⟨.explorerAnswer, origin.render, document?.getD .null⟩ := by
  unfold answerRecord
  cases documentOf content? <;> rfl

theorem answerRecord_eq_error {origin : Path} {content? : Option (List UInt8)} {f : Fault} :
    answerRecord origin content? = .error f ↔ IsUnreadable content? f := by
  rw [answerRecord_eq, ← documentOf_eq_error]
  cases documentOf content? <;> simp [Except.map]

theorem isAnswerRecord_of_answerRecord {root : String} {answer : List String × List UInt8}
    {r : RawRecord}
    (read : answerRecord ((Path.ofText root).join ⟨.relative, answer.1⟩) (answerIn t l answer) =
    .ok r) :
    IsAnswerRecord t root l answer r := by
  rw [answerRecord_eq] at read
  cases holds : documentOf (answerIn t l answer) with
  | error f =>
    rw [holds] at read
    cases read
  | ok document? =>
    rw [holds] at read
    cases read
    exact ⟨rfl, rfl, document?, documentOf_eq_ok.1 holds, rfl⟩

/-! ## Whole corpora -/

theorem folderRecords_eq {root : String} (named : root ≠ "")
    (there : t.directory? (.ofText root) = some l) :
    folderRecords t root = .ofReadings ((folderRecords.folders (t.below l)).map fun x =>
      folderRecord ((Path.ofText root).join ⟨.relative, x.1⟩) (metadataIn t l x)
        (openedFiles t (l ++ x.1) (filesIn x.1 (t.below l)))) := by
  have no_nul := Tree.no_nul_of_locate (Tree.locate_of_directory? there)
  have filled : root.isEmpty = false := by simpa using named
  rw [folderRecords, no_nul, filled, there]
  rfl

/-- **The records of a bulk dataset are those of its folders.** -/
theorem isReadingOf_folderRecords (listed : t.IsWellFormed) {root : String} (named : root ≠ "")
    (there : t.directory? (.ofText root) = some l) :
    (folderRecords t root).IsReadingOf (folderRecords.folders (t.below l)) (metadataIn t l)
      (IsFolderRecord t root l) := by
  rw [folderRecords_eq named there]
  exact CorpusStream.isReadingOf_ofReadings (fun _ _ => isFolderRecord_of_folderRecord listed root)
    (fun _ _ => folderRecord_eq_error) _

/-- Whether the last name is that of an answer. -/
def namesAnswer (names : List String) : Bool := names.getLast?.any (endsIn ".json")

/-- The answer at a place. -/
theorem picks_answers (x : List String × Entry) (y : List String × List UInt8) :
    (match x.2 with
      | .file content => if x.1.getLast?.any (endsIn ".json") then some (x.1, content) else none
      | .directory => none) = some y ↔ namesAnswer y.1 = true ∧ x = (y.1, .file y.2) := by
  obtain ⟨names, e⟩ := x
  obtain ⟨names', content⟩ := y
  cases e with
  | directory => simp
  | file bytes =>
    simp only [namesAnswer, Option.ite_none_right_eq_some, Option.some.injEq, Prod.mk.injEq,
      Entry.file.injEq]
    constructor
    · rintro ⟨last, rfl, rfl⟩
      exact ⟨last, rfl, rfl⟩
    · rintro ⟨last, rfl, rfl⟩
      exact ⟨last, rfl, rfl⟩

theorem mem_answers (listed : t.IsWellFormed) {names : List String} {content : List UInt8} :
    (names, content) ∈ answerRecords.answers (t.below l) ↔
      namesAnswer names = true ∧ t.at? (l ++ names) = some (.file content) := by
  have filled : namesAnswer names = true → names ≠ [] := by
    rintro last rfl
    cases last
  have picked (x : List String × Entry) :=
    and_congr_right' (a := x ∈ t.below l) (picks_answers x (names, content))
  refine List.mem_filterMap.trans ((exists_congr picked).trans ?_)
  simp only [and_left_comm, exists_and_left, exists_eq_right, listed.file_mem_below]
  exact and_iff_right_of_imp fun found => filled found.1

theorem nodup_answers (listed : t.IsWellFormed) :
    ((answerRecords.answers (t.below l)).map Prod.fst).Nodup :=
  nodup_picked id (fun x y picked => ((picks_answers x y).1 picked).2) (listed.nodup_below l)

/-- **The records of a collection of answers are those of its answers.** -/
theorem isReadingOf_answerRecords {root : String} (there : t.directory? (.ofText root) = some l) :
    (answerRecords t root).IsReadingOf (answerRecords.answers (t.below l)) (answerIn t l)
      (IsAnswerRecord t root l) := by
  have found := Tree.locate_of_directory? there
  rw [answerRecords]
  simp only [found, there]
  exact CorpusStream.isReadingOf_ofReadings (fun _ _ => isAnswerRecord_of_answerRecord)
    (fun _ _ => answerRecord_eq_error) _

/-! ## Names in records -/

theorem documentOf_hasDistinctNames (content? : Option (List UInt8)) :
    Yields (documentOf content?) fun document? => (document?.getD .null).HasDistinctNames := by
  intro document? read
  cases documentOf_eq_ok.1 read with
  | document bytes parsed => exact Json.parse_hasDistinctNames _ _ parsed
  | nothing bytes parsed => exact .null
  | closed => exact .null

theorem sourcesOf_hasDistinctNames {files : List (String × List UInt8)}
    (distinct : (files.map Prod.fst).Nodup) {sources : List (String × Value)}
    (read : sourcesOf (openedFiles t l files) = some sources) :
    (Value.object sources).HasDistinctNames := by
  refine .object (nodup_sourcesOf read distinct) fun m mem => ?_
  rw [eq_of_sourcesOf read] at mem
  obtain ⟨f, -, rfl⟩ := List.mem_map.1 mem
  exact .text _

theorem folderRecord_hasDistinctNames (origin : Path) (metadata : Option (List UInt8))
    {files : List (String × List UInt8)} (distinct : (files.map Prod.fst).Nodup) :
    Yields (folderRecord origin metadata (openedFiles t l files)) fun r =>
      r.payload.HasDistinctNames := by
  rw [folderRecord_eq]
  refine .map fun document? read => ?_
  have named := documentOf_hasDistinctNames metadata document? read
  cases document? with
  | none => exact .null
  | some document =>
    cases beside : sourcesOf (openedFiles t l files) with
    | none => exact .null
    | some sources =>
      refine .object (by simp [Assoc.names]) ?_
      simp only [List.forall_mem_cons, List.not_mem_nil, false_implies, implies_true, and_true]
      exact ⟨named, sourcesOf_hasDistinctNames distinct beside⟩

theorem answerRecord_hasDistinctNames (origin : Path) (content? : Option (List UInt8)) :
    Yields (answerRecord origin content?) fun r => r.payload.HasDistinctNames := by
  rw [answerRecord_eq]
  exact .map (documentOf_hasDistinctNames content?)

theorem mem_ofReadings {r : RawRecord} {readings : List (Except Fault RawRecord)}
    (mem : r ∈ (CorpusStream.ofReadings readings).records) : .ok r ∈ readings := by
  induction readings with
  | nil => cases mem
  | cons reading rest ih =>
    cases reading with
    | error f => cases mem
    | ok first =>
      rcases List.mem_cons.1 mem with rfl | later
      · exact List.mem_cons_self
      · exact List.mem_cons_of_mem _ (ih later)

/-- **No name occurs twice in a record that is read.** -/
theorem hasDistinctNames_of_read (listed : t.IsWellFormed) (root : String) :
    ∀ corpus ∈ [folderRecords t root, answerRecords t root],
      ∀ r ∈ corpus.records, r.payload.HasDistinctNames := by
  simp only [List.forall_mem_cons, List.not_mem_nil, false_implies, implies_true, and_true]
  constructor
  · intro r mem
    unfold folderRecords at mem
    split at mem
    · cases mem
    split at mem
    · cases mem
    split at mem
    · cases mem
    · rename_i l there
      obtain ⟨folder, -, read⟩ := List.mem_map.1 (mem_ofReadings mem)
      exact folderRecord_hasDistinctNames _ _ (nodup_filesIn listed folder.1) r read
  · intro r mem
    unfold answerRecords at mem
    dsimp only at mem
    split at mem
    · cases mem
    split at mem
    · cases mem
    · obtain ⟨answer, -, read⟩ := List.mem_map.1 (mem_ofReadings mem)
      exact answerRecord_hasDistinctNames _ _ r read

/-- **A corpus is read file by file, and loaded if no file stops the reading.** The records are one
for each folder with metadata, or one for each answer of an explorer, in order up to the first file
whose bytes stop the reading; what holds no document is a record without payload. If the reading is
not stopped, loading with errors ignored completes and every contract of a record has a row;
otherwise it ends with the fault. -/
theorem reads_each_file {t : Tree} (listed : t.IsWellFormed) {root : String} {l : Location}
    (there : t.directory? (.ofText root) = some l) :
    (root ≠ "" → ∃ folders : List (List String × List UInt8),
      (folders.map Prod.fst).Nodup ∧
      (∀ names content, (names, content) ∈ folders ↔
        t.at? (l ++ names ++ [metadataName]) = some (.file content)) ∧
      (folderRecords t root).IsReadingOf folders (metadataIn t l) (IsFolderRecord t root l)) ∧
    (∃ answers : List (List String × List UInt8),
      (answers.map Prod.fst).Nodup ∧
      (∀ names content, (names, content) ∈ answers ↔
        namesAnswer names = true ∧ t.at? (l ++ names) = some (.file content)) ∧
      (answerRecords t root).IsReadingOf answers (answerIn t l) (IsAnswerRecord t root l)) ∧
    ∀ corpus ∈ [folderRecords t root, answerRecords t root],
      ∀ (db : Database) (chunk : Int), 1 ≤ chunk →
      (corpus.stop = none → ∃ (summary : LoadSummary) (loaded : Database),
        db.load { chunkSize := chunk, ignoreErrors := true } corpus = (.ok summary, loaded) ∧
        ∀ r ∈ corpus.records, ∀ c, r.contract = .ok c → (loaded.row? c.id).isSome = true) ∧
      ∀ f, corpus.stop = some f →
        (db.load { chunkSize := chunk, ignoreErrors := true } corpus).1 = .error (.fault f) := by
  have folders (named : root ≠ "") := isReadingOf_folderRecords listed named there
  have answers := isReadingOf_answerRecords there
  refine ⟨fun named => ⟨_, nodup_folders listed, fun _ _ => mem_folders listed, folders named⟩,
    ⟨_, nodup_answers listed, fun _ _ => mem_answers listed, answers⟩, ?_⟩
  rintro ⟨records, stop⟩ - db chunk positive
  refine ⟨?_, ?_⟩
  · rintro rfl
    refine ⟨_, _, Database.load_complete positive (.inl rfl) db, fun r mem c sound => ?_⟩
    exact Database.isSome_row?_store.2 (.inr ⟨c, RawRecord.mem_contractsOf.2 ⟨r, mem, sound⟩, rfl⟩)
  · rintro f rfl
    rw [Database.load_cut_off positive rfl]

/-! ## Two folders -/

/-- A folder of a corpus with an empty source. -/
def folderAt (name : String) (metadata : List UInt8) : List (Location × Entry) :=
  [(["root", name], .directory), (["root", name, "main.sol"], .file []),
    (["root", name, "metadata.json"], .file metadata)]

/-- A corpus of two folders. -/
def twoFolders (first second : List UInt8) : Tree where
  entries := (["root"], .directory) :: folderAt "A" first ++ folderAt "B" second

/-- Metadata that name the contract of an empty source. -/
def namedB : Value := .object [("ContractName", .text "B"), ("CompilerVersion", .text "0.8.20")]

/-- The bytes of these metadata. -/
def bytesOfB : List UInt8 := Text.utf8 (Json.write namedB).toList

theorem isWellFormed_twoFolders (a b : List UInt8) : (twoFolders a b).IsWellFormed := by
  refine ⟨?_, ?_⟩
  · show [["root"], ["root", "A"], ["root", "A", "main.sol"], ["root", "A", "metadata.json"],
        ["root", "B"],
      ["root", "B", "main.sol"], ["root", "B", "metadata.json"]].Nodup
    decide
  · simp [twoFolders, folderAt, Tree.isStart]

theorem directory?_twoFolders (a b : List UInt8) :
    (twoFolders a b).directory? (.ofText "root") = some ["root"] := rfl

theorem below_twoFolders (a b : List UInt8) :
    (twoFolders a b).below ["root"] =
      [(["A"], .directory), (["A", "main.sol"], .file []), (["A", "metadata.json"], .file a),
        (["B"], .directory), (["B", "main.sol"], .file []), (["B", "metadata.json"], .file b)] := by
  rw [Tree.below]
  refine List.mergeSort_of_pairwise ?_
  show List.Pairwise _ [_, _, _, _, _, _]
  simp only [List.pairwise_cons, List.forall_mem_cons, List.not_mem_nil, false_implies,
    implies_true, and_true, List.Pairwise.nil]
  decide

/-- The records of the two folders are read one after the other. -/
theorem folderRecords_twoFolders (a b : List UInt8) :
    folderRecords (twoFolders a b) "root" = .ofReadings
      [folderRecord ⟨.relative, ["root", "A"]⟩ (some a)
          [("main.sol", some []), ("metadata.json", some a)],
        folderRecord ⟨.relative, ["root", "B"]⟩ (some b)
          [("main.sol", some []), ("metadata.json", some b)]] := by
  have folders : folderRecords.folders ((twoFolders a b).below ["root"]) = [(["A"], a),
      (["B"], b)] := by
    rw [below_twoFolders, folderRecords.folders]
    refine List.mergeSort_of_pairwise ?_
    show List.Pairwise _ [(["A"], a), (["B"], b)]
    simp only [List.pairwise_pair]
    decide
  rw [folderRecords_eq (by decide) (directory?_twoFolders a b), folders, below_twoFolders]
  rfl

theorem holds_nothing : Holds (some []) none :=
  .nothing (s := []) rfl
    (show Json.parse "" =
      .error (.badDocument "Expecting value: line 1 column 1 (char 0)") from rfl)

theorem holds_namedB : Holds (some bytesOfB) (some namedB) := by
  refine .document rfl ?_
  have same : fileText (Json.write namedB).toList = Json.write namedB := by decide
  have plain : Json.Plain namedB := .object (by decide) <| by
    simp only [List.forall_mem_cons, List.not_mem_nil, false_implies, implies_true, and_true]
    exact ⟨.text _, .text _⟩
  rw [same]
  exact Json.parse_write plain

/-- What is read of the second folder. -/
def recordOfB : RawRecord :=
  ⟨.folder, "root/B", .object [("metadata", namedB), ("files", .object [("main.sol", .text "")])]⟩

theorem folderRecord_B :
    folderRecord ⟨.relative, ["root", "B"]⟩ (some bytesOfB)
      [("main.sol", some []), ("metadata.json", some bytesOfB)] = .ok recordOfB := by
  have empty : lenientText [] = "" := by
    rw [lenientText, Text.decodeReplacing, Text.decodeUnits]
    rfl
  rw [folderRecord_eq, holds_namedB.documentOf]
  show Except.ok (RawRecord.mk .folder "root/B" (.object [("metadata", namedB),
    ("files", .object [("main.sol", .text (lenientText []))])])) = _
  rw [empty]
  rfl

/-- Metadata that are empty do not keep the other folder from being stored. -/
theorem reads_past_emptyMetadata :
    (twoFolders [] bytesOfB).IsWellFormed ∧
    (twoFolders [] bytesOfB).directory? (.ofText "root") = some ["root"] ∧
    ∃ (summary : LoadSummary) (loaded : Database),
      ({} : Database).load { chunkSize := 1, ignoreErrors := true }
        (folderRecords (twoFolders [] bytesOfB) "root") = (.ok summary, loaded) ∧
      (loaded.row? (Contract.ofEmptyFolder "B").id).isSome = true := by
  have listed := isWellFormed_twoFolders [] bytesOfB
  have there := directory?_twoFolders [] bytesOfB
  have records : folderRecords (twoFolders [] bytesOfB) "root" =
      ⟨[⟨.folder, "root/A", .null⟩, recordOfB], none⟩ := by
    rw [folderRecords_twoFolders, folderRecord_B, folderRecord_eq, holds_nothing.documentOf]
    rfl
  obtain ⟨-, -, loads⟩ := reads_each_file listed there
  obtain ⟨summary, loaded, done, stored⟩ :=
    (loads _ List.mem_cons_self {} 1 (by decide)).1 (by rw [records])
  refine ⟨listed, there, summary, loaded, done, stored recordOfB ?_ _ rfl⟩
  rw [records]
  simp

/-- **One byte that is no text stops the reading and the loading.** The second folder holds a
contract, and it is not stored although errors are ignored. -/
theorem load_stopped_by_byte :
    (twoFolders [0xFF] bytesOfB).IsWellFormed ∧
    recordOfB.contract = .ok (.ofEmptyFolder "B") ∧
    folderRecord ⟨.relative, ["root", "B"]⟩ (some bytesOfB)
      [("main.sol", some []), ("metadata.json", some bytesOfB)] = .ok recordOfB ∧
    folderRecords (twoFolders [0xFF] bytesOfB) "root" = ⟨[], some .badEncoding⟩ ∧
    ({} : Database).load { chunkSize := 1, ignoreErrors := true }
      (folderRecords (twoFolders [0xFF] bytesOfB) "root") = (.error (.fault .badEncoding), {}) := by
  have no_text (s : List Char) : ([0xFF] : List UInt8) ≠ Text.utf8 s := by
    intro same
    have read := Text.decode?_eq_some_iff.2 same
    simp [Text.decode?, Text.decodeUnits, Text.leadByte?] at read
  have records : folderRecords (twoFolders [0xFF] bytesOfB) "root" = ⟨[], some .badEncoding⟩ := by
    rw [folderRecords_twoFolders, folderRecord_eq_error.2 (.encoding no_text)]
    rfl
  refine ⟨isWellFormed_twoFolders _ _, rfl, folderRecord_B, records, ?_⟩
  rw [records, Database.load_cut_off (by decide) rfl]
  rfl

end Corpus

end SelectorCatalog
