import SelectorCatalog.Proofs.Export.Confinement
import SelectorCatalog.Proofs.Export.FreeNames
import SelectorCatalog.Proofs.Files.Folders

/-!
# Files that stand beside each other

The files of an exported folder can all be there if none of them is above the file of a source
(`CanCoexist`). Names are chosen to be different, not to leave room for directories, so this is no
matter of course (`plan_needs_directory`). Exactly then an export into an empty folder does not stop
half-way (`plan_coexists`), unusable names aside.
-/

set_option autoImplicit false

namespace SelectorCatalog.Export

open SelectorCatalog.Path (IsInner)

variable (sources : List (String × String))

/-! ## The files of a folder -/

/-- The names of the files of an exported folder: those of the documents and those of the
sources. -/
def fileNames : List String := reserved ++ (plan sources).map Prod.fst

/-- No file of the folder is where the file of a source needs a directory. -/
def CanCoexist : Prop :=
  ∀ file ∈ fileNames sources, ∀ target ∈ (plan sources).map Prod.fst,
    ¬(Path.ofText file).IsAbove (.ofText target)

instance : Decidable (CanCoexist sources) :=
  inferInstanceAs (Decidable (∀ file ∈ fileNames sources,
    ∀ target ∈ (plan sources).map Prod.fst, _))

theorem document_or_target {file : String} (h : file ∈ fileNames sources) :
    file ∈ reserved ∨ ∃ source ∈ sources, ∃ used,
      FirstFree used (fullName sources source) file := by
  rw [fileNames, ← usedBefore_length, mem_usedBefore] at h
  refine h.imp_right ?_
  rintro ⟨i, -, first⟩
  exact ⟨sources[i.val], List.getElem_mem i.isLt, _, first⟩

theorem endsIn_reserved {name : String} (h : name ∈ reserved) :
    Path.EndsIn name ⟨.relative, []⟩ name := by
  have ends : Path.EndsIn ("/".intercalate ([] ++ [name])) ⟨.relative, []⟩ name :=
    Path.endsIn_joined (by simp) (isName_reserved h)
  rwa [List.nil_append, String.intercalate_singleton] at ends

theorem endsIn_fileName {file : String} (h : file ∈ fileNames sources) :
    ∃ directory last, Path.EndsIn file directory last := by
  rcases document_or_target sources h with document | ⟨source, -, used, first⟩
  · exact ⟨_, _, endsIn_reserved document⟩
  · obtain ⟨last, ends⟩ := endsIn_fullName sources source
    obtain ⟨final, ends, -⟩ := first.endsIn ends
    exact ⟨_, _, ends⟩

/-- Targets stand in the directories of the cleaned names, in order. -/
theorem parents_plan :
    ((plan sources).map Prod.fst).map (fun target => (Path.ofText target).parent) =
      sources.map fun source => (Path.ofText (sanitize source.1)).parent := by
  refine List.ext_getElem (by simp [length_plan]) fun i _ bound => ?_
  rw [List.length_map] at bound
  obtain ⟨target, found, first⟩ := getElem?_plan sources ⟨i, bound⟩
  obtain ⟨last, ends⟩ := endsIn_fullName sources sources[i]
  obtain ⟨final, ends, -⟩ := first.endsIn ends
  obtain ⟨listed, here⟩ := List.getElem?_eq_some_iff.1 found
  simp [here, ends.parent]

/-- **Whether the files can coexist is told by the cleaned names**: no file may be above one of
them. -/
theorem canCoexist_iff :
    CanCoexist sources ↔ ∀ file ∈ fileNames sources, ∀ source ∈ sources,
      ¬(Path.ofText file).IsAbove (.ofText (sanitize source.1)) := by
  refine forall₂_congr fun file mem => ?_
  obtain ⟨directory, last, ends⟩ := endsIn_fileName sources mem
  have above (q : Path) : (Path.ofText file).IsAbove q ↔ (Path.ofText file).Reaches q.parent :=
    Path.isAbove_iff ends.parts_ne_nil
  calc
    _ ↔ ∀ directory ∈ ((plan sources).map Prod.fst).map (fun target => (Path.ofText target).parent),
          ¬(Path.ofText file).Reaches directory := by
      simp only [List.forall_mem_map, above]
    _ ↔ ∀ directory ∈ sources.map (fun source => (Path.ofText (sanitize source.1)).parent),
          ¬(Path.ofText file).Reaches directory := by
      rw [parents_plan]
    _ ↔ _ := by
      simp only [List.forall_mem_map, above]

/-! ## Names with suffixes -/

/-- No directory of the cleaned name has a suffix, and the name that the source asks for has one. -/
structure IsOrdinary (source : String × String) : Prop where
  directories : ∀ d ∈ (Path.ofText (sanitize source.1)).parent.parts, (Path.splitName d).2 = ""
  file : (Path.ofText (fullName sources source)).suffix ≠ ""

theorem suffix_numberedName {last : String} (h : (Path.splitName last).2 ≠ "") (n : Nat) :
    (Path.splitName (numberedName last n)).2 ≠ "" := by
  have kept := Path.suffix_between h ("_" ++ toString n)
  rw [← String.append_assoc] at kept
  rw [numberedName, kept]
  exact h

theorem endsIn_fileName_suffix (ordinary : ∀ source ∈ sources, IsOrdinary sources source)
    {file : String} (h : file ∈ fileNames sources) :
    ∃ directory last, Path.EndsIn file directory last ∧ (Path.splitName last).2 ≠ "" := by
  rcases document_or_target sources h with document | ⟨source, mem, used, first⟩
  · refine ⟨_, _, endsIn_reserved document, ?_⟩
    rcases List.mem_pair.1 document with rfl | rfl <;> decide
  · obtain ⟨last, ends⟩ := endsIn_fullName sources source
    have suffixed := (ordinary source mem).file
    rw [ends.suffix] at suffixed
    obtain ⟨final, target, same | ⟨n, same⟩⟩ := first.endsIn ends
    · exact ⟨_, final, target, same ▸ suffixed⟩
    · exact ⟨_, final, target, same ▸ suffix_numberedName suffixed n⟩

/-- **Files with suffixes coexist** where no directory has a suffix. -/
theorem canCoexist_of_ordinary (ordinary : ∀ source ∈ sources, IsOrdinary sources source) :
    CanCoexist sources := by
  rw [canCoexist_iff]
  intro file listed source mem above
  obtain ⟨directory, last, ends, suffixed⟩ := endsIn_fileName_suffix sources ordinary listed
  have under := ((Path.isAbove_iff ends.parts_ne_nil).1 above).2
  refine suffixed ((ordinary source mem).directories last (under.subset ?_))
  rw [ends.ofText, Path.join_relative]
  exact List.mem_append_right _ (List.mem_singleton_self _)

/-! ## Writing a folder -/

variable {sources}

/-- No document is in a directory, so that no file is above any other. -/
theorem CanCoexist.apart (h : CanCoexist sources) :
    ∀ p ∈ fileNames sources, ∀ q ∈ fileNames sources, ¬(Path.ofText p).IsAbove (.ofText q) := by
  intro p listed q mem above
  rcases List.mem_append.1 mem with document | target
  · obtain ⟨directory, last, ends⟩ := endsIn_fileName sources listed
    have under := ((Path.isAbove_iff ends.parts_ne_nil).1 above).2
    rw [(endsIn_reserved document).parent] at under
    exact ends.parts_ne_nil (List.prefix_nil.1 under)
  · exact h p listed q target above

theorem isInner_fileName (single : ∀ source ∈ sources, ¬HasDoubledRoot source.1) {file : String}
    (h : file ∈ fileNames sources) : IsInner file := by
  rcases List.mem_append.1 h with document | target
  · exact isInner_reserved document
  · obtain ⟨entry, listed, rfl⟩ := List.mem_map.1 target
    obtain ⟨source, mem, found⟩ := exists_source listed
    exact found.isInner_iff.2 (single source mem)

/-- The fault is that the path of one of the files cannot be used. -/
def RefusesFile (folder : Path) (files : List String) (f : Fault) : Prop :=
  ∃ file ∈ files, f.Refuses (folder.join (.ofText file))

section

variable {folder : Path} {t u : Tree}

/-- A tidy folder stays tidy with each source, and each is placed in it unless its path is
refused. -/
theorem failsFrom_writeSources {files : List String} {targets : List (String × String)}
    (listed : ∀ target ∈ targets, target.1 ∈ files) (inner : ∀ file ∈ files, IsInner file)
    (apart : ∀ p ∈ files, ∀ q ∈ files, ¬(Path.ofText p).IsAbove (.ofText q))
    (tidy : t.IsTidy folder files) :
    (writeSources folder targets).FailsFrom t (RefusesFile folder files) := by
  induction targets generalizing t with
  | nil =>
    intro f u failed
    cases failed
  | cons target rest ih =>
    have ⟨first, others⟩ := List.forall_mem_cons.1 listed
    have place := tidy.failsFrom_place first (inner _ first) apart (bytes target.2)
    refine .bind (place.imp fun _ h => ⟨target.1, first, h⟩) fun _ u placed => ih others ?_
    exact (Tree.keepsTidy_place first (inner _ first) _).after placed tidy

/-- **A folder is written unless a path is refused**, if it can be made and is empty then, and if
its files can coexist. -/
theorem failsFrom_writeFolder {c : Contract} (made : Tree.makeDirectories folder t = (.ok (), u))
    (empty : ∀ l, Inside folder l → u.at? l = none)
    (single : ∀ source ∈ c.sources, ¬HasDoubledRoot source.1) (h : CanCoexist c.sources) :
    (writeFolder folder c).FailsFrom t (RefusesFile folder (fileNames c.sources)) := by
  have inner (file : String) (mem : file ∈ fileNames c.sources) := isInner_fileName single mem
  have target {entry : String × String} (mem : entry ∈ plan c.sources) :
      entry.1 ∈ fileNames c.sources :=
    List.mem_append_right _ (List.mem_map_of_mem mem)
  have document {name : String} (mem : name ∈ reserved) : name ∈ fileNames c.sources :=
    List.mem_append_left _ mem
  have order := Tree.isPreorder_keepsTidy folder (fileNames c.sources)
  have start : u.IsTidy folder (fileNames c.sources) :=
    Tree.isTidy_of_empty (Tree.isDirectory_makeDirectories made) (fun p hp =>
      empty _ (inside_join folder hp)) _
  -- a document stands in the folder itself
  have own {v : Tree} (tidy : v.IsTidy folder (fileNames c.sources)) {name : String}
      (mem : name ∈ reserved) (content : List UInt8) :
      (Tree.write (folder.join (.ofText name)) content).FailsFrom v
        (RefusesFile folder (fileNames c.sources)) := by
    have parent : (folder.join (.ofText name)).parent = folder := by
      rw [(endsIn_reserved mem).ofText]
      simp [Path.parent]
    have there : v.isDirectory (folder.join (.ofText name)).parent = true := by
      rw [parent]
      exact tidy.reached
    have write := tidy.failsFrom_write (document mem) (isInner_reserved mem) h.apart there content
    exact write.imp fun _ refused => ⟨name, document mem, refused⟩
  refine .bind (fun f v failed => by cases failed.symm.trans made) fun _ v again => ?_
  cases again.symm.trans made
  refine .bind (failsFrom_writeSources (fun _ => target) inner h.apart start) fun _ v written => ?_
  have placed := relates_writeSources order fun _ mem =>
    Tree.keepsTidy_place (target mem) (inner _ (target mem)) _
  have tidy := placed.after written start
  have first : "contract.json" ∈ reserved := by decide
  refine .bind (own tidy first _) fun _ w input => own ?_ (by decide) _
  exact (Tree.keepsTidy_write (document first) (isInner_reserved first) _).after input tidy

/-- Every file of a folder that was written to its end is there. -/
theorem file_fileNames {c : Contract} (h : writeFolder folder c t = (.ok (), u)) :
    ∀ file ∈ fileNames c.sources, ∃ content,
      u.at? (folder.join (.ofText file)).location = some (.file content) := by
  refine List.forall_mem_append.2 ⟨fun name document => ?_,
    List.forall_mem_map.2 (file_writeFolder h)⟩
  have ⟨input, metadata⟩ := holdsDocuments_writeFolder h
  rw [location_reserved folder document]
  rcases List.mem_pair.1 document with rfl | rfl
  · exact ⟨_, metadata⟩
  · exact ⟨_, input⟩

/-- **A folder is written to its end only if its files can coexist**, whatever was there before. -/
theorem canCoexist_of_written {c : Contract} (h : writeFolder folder c t = (.ok (), u)) :
    CanCoexist c.sources := by
  have directories : ∀ target ∈ plan c.sources,
      u.isDirectory (folder.join (.ofText target.1)).parent = true :=
    holds_writeFolder (Q := fun name t => t.isDirectory (folder.join (.ofText name)).parent = true)
      (fun _ p content t => (Tree.keepsDirectories_place p content t).isDirectory)
      (fun _ p content t => (Tree.keepsDirectories_write p content t).isDirectory)
      Tree.isDirectory_place h
  intro file listed target mem above
  obtain ⟨entry, planned, rfl⟩ := List.mem_map.1 mem
  obtain ⟨directory, last, ends⟩ := endsIn_fileName c.sources listed
  obtain ⟨content, there⟩ := file_fileNames h file listed
  exact Tree.not_isAbove_of_directory (directories entry planned)
    (Path.parts_join_ne_nil ends.parts_ne_nil folder) there (above.join folder)

end

/-! ## Exports -/

/-- **Exported files can stand beside each other exactly if no file is above a cleaned name**, for
instance if they have suffixes and no directory has one. No export ends well otherwise. Let the
folder of a contract whose sources have no doubled root be made and be empty then: if the files can
coexist, the export ends well unless the path of a file cannot be used, and does not stop at a file
where a directory is needed or the other way round. -/
theorem plan_coexists (sources : List (String × String)) :
    (CanCoexist sources ↔ ∀ file ∈ fileNames sources, ∀ source ∈ sources,
      ¬(Path.ofText file).IsAbove (.ofText (sanitize source.1))) ∧
    ((∀ source ∈ sources, IsOrdinary sources source) → CanCoexist sources) ∧
    ∀ (db : Database) (id output : String) (c : Contract) (t : Tree),
      db.contract? id = .ok (some c) → c.sources = sources →
      let folder := (Path.ofText output).join (.ofText c.id)
      ((exportContract db id output t).1 = .ok folder → CanCoexist sources) ∧
      ∀ u, Tree.makeDirectories folder t = (.ok (), u) → (∀ l, Inside folder l → u.at? l = none) →
        (∀ source ∈ sources, ¬HasDoubledRoot source.1) → CanCoexist sources →
        (exportContract db id output t).1 = .ok folder ∨
          ∃ f, (exportContract db id output t).1 = .error (.fault f) ∧
            RefusesFile folder (fileNames sources) f := by
  refine ⟨canCoexist_iff sources, canCoexist_of_ordinary sources, ?_⟩
  rintro db id output c t stored rfl folder
  cases written : writeFolder folder c t with
  | mk result v =>
    cases result with
    | ok =>
      rw [exportContract_ok stored output t written]
      exact ⟨fun _ => canCoexist_of_written written, fun _ _ _ _ _ => .inl rfl⟩
    | error f =>
      rw [exportContract_error stored output t written]
      refine ⟨(fun done => by cases done), fun u made empty single coexist => .inr ⟨f, rfl, ?_⟩⟩
      exact failsFrom_writeFolder made empty single coexist f v written

/-- A source in a directory and one beside it are exported into a new folder. -/
theorem plan_coexists_beside :
    let folder := (Path.ofText "out").join (.ofText "0a")
    let sources := (twoSources "lib/B.sol").sources
    (∀ source ∈ sources, IsOrdinary sources source) ∧ CanCoexist sources ∧
    (∀ source ∈ sources, ¬HasDoubledRoot source.1) ∧
    (∀ file ∈ fileNames sources, (folder.join (.ofText file)).IsUsable) ∧
    (∃ u, Tree.makeDirectories folder {} = (.ok (), u) ∧ ∀ l, Inside folder l → u.at? l = none) ∧
    (exportContract (tablesOf "lib/B.sol") "0a" "out" {}).1 = .ok folder := by
  intro folder sources
  obtain ⟨-, ordinary, exports⟩ := plan_coexists sources
  have all : ∀ source ∈ sources, IsOrdinary sources source :=
    List.forall_mem_cons.2 ⟨⟨by decide, by decide⟩,
      List.forall_mem_singleton.2 ⟨by decide, by decide⟩⟩
  have single : ∀ source ∈ sources, ¬HasDoubledRoot source.1 := by
    have first : ¬HasDoubledRoot "A.sol" := mt rootOf_eq_doubled_iff.2 (by decide)
    have second : ¬HasDoubledRoot "lib/B.sol" := mt rootOf_eq_doubled_iff.2 (by decide)
    show ∀ source ∈ [("A.sol", ""), ("lib/B.sol", "")], ¬HasDoubledRoot source.1
    simpa using ⟨first, second⟩
  have usable : ∀ file ∈ fileNames sources, (folder.join (.ofText file)).IsUsable := by
    decide +kernel
  have made : (Tree.makeDirectories folder {}).1 = .ok () := by decide +kernel
  have entries : (Tree.makeDirectories folder {}).2.entries =
      [(["out"], .directory), (["out", "0a"], .directory)] := by decide +kernel
  cases start : Tree.makeDirectories folder {} with
  | mk result u =>
    rw [start] at made entries
    obtain rfl : result = .ok () := made
    have empty : ∀ l, Inside folder l → u.at? l = none := by
      rintro l ⟨p, inner, rfl⟩
      obtain ⟨names, some_left, named, rfl⟩ := Path.isInner_iff.1 inner
      obtain ⟨name, rest, rfl⟩ := List.exists_cons_of_ne_nil some_left
      have place : folder.location = ["out", "0a"] := by decide
      rw [Path.ofText_joined named, place, Tree.at?, entries]
      simp [Tree.isStart, List.lookup_cons]
    refine ⟨all, ordinary all, single, usable, ⟨u, rfl, empty⟩, ?_⟩
    obtain ⟨-, ends⟩ :=
      exports (tablesOf "lib/B.sol") "0a" "out" ((twoSources "lib/B.sol").asStored .plain) {}
      (contract?_tablesOf "lib/B.sol") rfl
    rcases ends u start empty single (ordinary all) with done | ⟨f, -, file, listed, refused⟩
    · exact done
    · exact absurd (usable file listed) refused.unusable

/-- **Not all planned files can stand beside each other**: a source without a suffix gets the one
that makes it the directory of another source. The export of a file and of one below it stops
half-way. -/
theorem plan_needs_directory :
    plan [("A", "1"), ("A.sol/B.sol", "2")] = [("A.sol", "1"), ("A.sol/B.sol", "2")] ∧
    (Path.ofText "A.sol").IsAbove (.ofText "A.sol/B.sol") ∧
    ¬CanCoexist [("A", "1"), ("A.sol/B.sol", "2")] ∧
    (exportContract (tablesOf "A.sol/B.sol") "0a" "out" {}).1 = .error (.fault .fileExists) := by
  refine ⟨by decide +kernel, by decide, by decide +kernel, ?_⟩
  have stopped : (writeFolder ((Path.ofText "out").join (.ofText "0a"))
      ((twoSources "A.sol/B.sol").asStored .plain) {}).1 = .error .fileExists := by decide +kernel
  have folder : ((twoSources "A.sol/B.sol").asStored .plain).id = "0a" := rfl
  rw [exportContract_answer (contract?_tablesOf "A.sol/B.sol"), folder, stopped]
  rfl

end SelectorCatalog.Export
