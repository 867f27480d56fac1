import SelectorCatalog.Export.Write
import SelectorCatalog.Proofs.Contract.StoredForm
import SelectorCatalog.Proofs.Export.Targets
import SelectorCatalog.Proofs.Files.Confined

/-!
# Exported files stay in the folder

An export writes inside the folder of the contract if no source has a doubled root, and exactly then
all its targets are inner paths (`exportContract_confined`). A source with a doubled root is written
to the place that its own name tells, wherever the folder is.
-/

set_option autoImplicit false

namespace SelectorCatalog.Export

open SelectorCatalog.Path (IsInner)

/-- The locations that inner paths lead to from a folder. -/
def Inside (folder : Path) (l : Location) : Prop :=
  ∃ p, IsInner p ∧ l = folder.location ++ (Path.ofText p).parts

theorem inside_join (folder : Path) {p : String} (h : IsInner p) :
    Inside folder (folder.join (.ofText p)).location :=
  ⟨p, h, h.location_join folder⟩

theorem isName_reserved {name : String} (h : name ∈ reserved) : Path.IsName name := by
  rcases List.mem_pair.1 h with rfl | rfl <;> constructor <;> decide

theorem isInner_reserved {name : String} (h : name ∈ reserved) : IsInner name :=
  Path.isInner_iff.2 ⟨[name], List.cons_ne_nil _ _, by simpa using isName_reserved h, by simp⟩

/-! ## What is written -/

/-- What placing each of the sources does to a tree, placing all of them does. -/
theorem relates_writeSources {R : Tree → Tree → Prop} (order : Tree.IsPreorder R) {folder : Path}
    {targets : List (String × String)}
    (each : ∀ target ∈ targets,
      TreeStep.Relates R (Tree.place (folder.join (.ofText target.1)) (bytes target.2))) :
    TreeStep.Relates R (writeSources folder targets) := by
  induction targets with
  | nil => exact TreeStep.relates_pure order _
  | cons target rest ih =>
    have ⟨first, others⟩ := List.forall_mem_cons.1 each
    exact first.bind order fun _ => ih others

/-- **A folder is written inside of**, as long as all targets are inner paths. -/
theorem writesOnly_writeFolder (folder : Path) (c : Contract)
    (h : ∀ target ∈ plan c.sources, IsInner target.1) :
    TreeStep.Relates (Tree.WritesOnly (Inside folder)) (writeFolder folder c) := by
  have order := Tree.isPreorder_writesOnly (Inside folder)
  have own {name : String} (mem : name ∈ reserved) (content : List UInt8) :
      TreeStep.Relates (Tree.WritesOnly (Inside folder))
        (Tree.write (folder.join (.ofText name)) content) :=
    Tree.writesOnly_write (inside_join folder (isInner_reserved mem)) content
  have sources := relates_writeSources order fun target mem =>
    Tree.writesOnly_place (inside_join folder (h target mem)) (bytes target.2)
  refine (Tree.writesOnly_makeDirectories _ folder).bind order fun _ =>
    sources.bind order fun _ => ?_
  exact (own (by decide) _).bind order fun _ => own (by decide) _

section

variable {folder : Path} {Q : String → Tree → Prop}
  (keeps_place : ∀ name p content,
    TreeStep.Relates (fun t u => Q name t → Q name u) (Tree.place p content))
  (keeps_write : ∀ name p content,
    TreeStep.Relates (fun t u => Q name t → Q name u) (Tree.write p content))
  (placed : ∀ {name content} {t u : Tree},
    Tree.place (folder.join (.ofText name)) content t = (.ok (), u) → Q name u)

include keeps_place placed

theorem holds_writeSources {targets : List (String × String)} {t t' : Tree}
    (h : writeSources folder targets t = (.ok (), t')) : ∀ target ∈ targets, Q target.1 t' := by
  induction targets generalizing t with
  | nil => exact fun target mem => absurd mem List.not_mem_nil
  | cons target rest ih =>
    obtain ⟨_, u, first, others⟩ := TreeStep.bind_ok h
    have kept := relates_writeSources (Tree.isPreorder_keeps (Q target.1))
      fun other (_ : other ∈ rest) =>
        keeps_place target.1 (folder.join (.ofText other.1)) (bytes other.2)
    exact List.forall_mem_cons.2 ⟨kept.after others (placed first), ih others⟩

include keeps_write

/-- **What placing a source brings about holds of every target** when a folder is written to its
end, if nothing that is written after it takes it away. -/
theorem holds_writeFolder {c : Contract} {t t' : Tree} (h : writeFolder folder c t = (.ok (), t')) :
    ∀ target ∈ plan c.sources, Q target.1 t' := by
  intro target mem
  obtain ⟨_, u, -, sources⟩ := TreeStep.bind_ok h
  obtain ⟨_, v, written, documents⟩ := TreeStep.bind_ok sources
  obtain ⟨_, w, input, metadata⟩ := TreeStep.bind_ok documents
  have there := holds_writeSources keeps_place placed written target mem
  exact (keeps_write target.1 _ _).after metadata ((keeps_write target.1 _ _).after input there)

end

/-- **Every target becomes a file** when a folder is written to its end. -/
theorem file_writeFolder {folder : Path} {c : Contract} {t t' : Tree}
    (h : writeFolder folder c t = (.ok (), t')) :
    ∀ target ∈ plan c.sources, ∃ content,
      t'.at? (folder.join (.ofText target.1)).location = some (.file content) :=
  holds_writeFolder (fun _ => Tree.keepsFile_place _) (fun _ => Tree.keepsFile_write _)
    (fun placed => ⟨_, Tree.at?_place placed⟩) h

theorem location_reserved (folder : Path) {name : String} (h : name ∈ reserved) :
    (folder.join (.ofText name)).location = folder.location ++ [name] := by
  have parsed : Path.ofText name = ⟨.relative, [name]⟩ := by
    rcases List.mem_pair.1 h with rfl | rfl <;> decide
  have other : name ≠ ".." := by
    rcases List.mem_pair.1 h with rfl | rfl <;> decide
  rw [parsed]
  exact Path.location_join (by simpa using other) folder

/-- The two documents of a contract are in a folder. -/
structure HoldsDocuments (t : Tree) (l : Location) (c : Contract) : Prop where
  input : t.at? (l ++ ["contract.json"]) = some (.file (bytes (Json.writeLines c.exportedInput)))
  metadata : t.at? (l ++ ["metadata.json"]) = some (.file (bytes (Json.writeLines c.metadata)))

/-- **Both documents are there** when a folder is written to its end. No source takes their places,
since they are written last. -/
theorem holdsDocuments_writeFolder {folder : Path} {c : Contract} {t t' : Tree}
    (h : writeFolder folder c t = (.ok (), t')) :
    HoldsDocuments t' folder.location c := by
  obtain ⟨_, u, -, sources⟩ := TreeStep.bind_ok h
  obtain ⟨_, v, -, documents⟩ := TreeStep.bind_ok sources
  obtain ⟨_, w, input, metadata⟩ := TreeStep.bind_ok documents
  have apart : folder.location ++ ["contract.json"] ≠ folder.location ++ ["metadata.json"] := by
    simp
  rw [← location_reserved folder (by decide), ← location_reserved folder (by decide)] at apart
  constructor
  · rw [← location_reserved folder (by decide), Tree.at?_write_of_ne metadata apart]
    exact Tree.at?_write input
  · rw [← location_reserved folder (by decide)]
    exact Tree.at?_write metadata

/-! ## Exports -/

section

variable {db : Database} {id : String} {c : Contract} (stored : db.contract? id = .ok (some c))
  (output : String) (t : Tree)

include stored

theorem exportContract_ok {t' : Tree}
    (written : writeFolder ((Path.ofText output).join (.ofText c.id)) c t = (.ok (), t')) :
    exportContract db id output t = (.ok ((Path.ofText output).join (.ofText c.id)), t') := by
  simp only [exportContract, stored, written]

theorem exportContract_error {f : Fault} {t' : Tree}
    (stopped : writeFolder ((Path.ofText output).join (.ofText c.id)) c t = (.error f, t')) :
    exportContract db id output t = (.error (.fault f), t') := by
  simp only [exportContract, stored, stopped]

/-- What an export answers is told by how writing its folder ends. -/
theorem exportContract_answer :
    (exportContract db id output t).1 =
      ((writeFolder ((Path.ofText output).join (.ofText c.id)) c t).1.map
        fun _ => (Path.ofText output).join (.ofText c.id)).mapError .fault := by
  cases written : writeFolder ((Path.ofText output).join (.ofText c.id)) c t with
  | mk result t' =>
    cases result with
    | ok => rw [exportContract_ok stored output t written]; rfl
    | error f => rw [exportContract_error stored output t written]; rfl

/-- What an export does to the tree is what writing its folder does. -/
theorem exportContract_tree :
    (exportContract db id output t).2 =
      (writeFolder ((Path.ofText output).join (.ofText c.id)) c t).2 := by
  cases written : writeFolder ((Path.ofText output).join (.ofText c.id)) c t with
  | mk result t' =>
    cases result with
    | ok => rw [exportContract_ok stored output t written]
    | error f => rw [exportContract_error stored output t written]

theorem writesOnly_exportContract (h : ∀ source ∈ c.sources, ¬HasDoubledRoot source.1) :
    t.WritesOnly (Inside ((Path.ofText output).join (.ofText c.id)))
      (exportContract db id output t).2 := by
  have inner : ∀ target ∈ plan c.sources, IsInner target.1 := by
    intro target mem
    obtain ⟨source, hs, found⟩ := exists_source mem
    exact found.isInner_iff.2 (h source hs)
  rw [exportContract_tree stored]
  exact writesOnly_writeFolder ((Path.ofText output).join (.ofText c.id)) c inner t

theorem file_exportContract {folder : Path}
    (done : (exportContract db id output t).1 = .ok folder) :
    ∀ target ∈ plan c.sources, ∃ content,
      (exportContract db id output t).2.at? (folder.join (.ofText target.1)).location =
        some (.file content) := by
  cases written : writeFolder ((Path.ofText output).join (.ofText c.id)) c t with
  | mk result t' =>
    cases result with
    | ok =>
      rw [exportContract_ok stored output t written] at done ⊢
      cases done
      exact file_writeFolder written
    | error f =>
      rw [exportContract_error stored output t written] at done
      cases done

end

/-! ## Contracts of two sources -/

/-- A contract of two empty sources, one of them with a plain name. -/
def twoSources (name : String) : Contract where
  name := some "A"
  compilerVersion := some "0.8.20"
  sources := [("A.sol", ""), (name, "")]
  id := "0a"

/-- Tables with this contract. -/
def tablesOf (name : String) : Database where
  contracts := [.ofContract .plain (twoSources name)]

theorem contract?_tablesOf (name : String) :
    (tablesOf name).contract? "0a" = .ok (some ((twoSources name).asStored .plain)) := by
  have row : (tablesOf name).row? "0a" = some (.ofContract .plain (twoSources name)) := rfl
  have short : (twoSources name).settings.HasShortRuns := show Text.IsShort 200 by decide
  have back :=
    ContractRow.contract_ofContract .plain (c := twoSources name) (by simp [twoSources]) short
  rw [Database.contract?, row]
  simp only [back]
  rfl

/-! ## The folder and what lies outside -/

/-- **Exported files stay in the folder exactly as long as no source has a doubled root.** A cleaned
name, and the target of a source, is an inner path exactly if the name has none. If no source has
one, nothing is written but inside the folder. The target of a source that has one is the same
wherever the folder is, and a file is there afterwards. -/
theorem exportContract_confined (db : Database) (id output : String) (t : Tree) {c : Contract}
    (stored : db.contract? id = .ok (some c)) :
    let folder := (Path.ofText output).join (.ofText c.id)
    (∀ name, IsInner (sanitize name) ↔ ¬HasDoubledRoot name) ∧
    ((∀ source ∈ c.sources, ¬HasDoubledRoot source.1) →
      t.WritesOnly (Inside folder) (exportContract db id output t).2) ∧
    List.Forall₂ (fun source target =>
      target.2 = source.2 ∧
      (IsInner target.1 ↔ ¬HasDoubledRoot source.1) ∧
      (HasDoubledRoot source.1 → folder.join (.ofText target.1) = .ofText target.1) ∧
      ((exportContract db id output t).1 = .ok folder → ∃ content,
        (exportContract db id output t).2.at? (folder.join (.ofText target.1)).location =
          some (.file content)))
      c.sources (plan c.sources) := by
  intro folder
  refine ⟨isInner_sanitize_iff, writesOnly_exportContract stored output t, ?_⟩
  obtain ⟨lengths, pairs⟩ := List.forall₂_iff_zip.1 (plan_targets c.sources)
  refine List.forall₂_iff_zip.2 ⟨lengths, fun {source target} pair => ?_⟩
  have found := pairs pair
  exact ⟨found.content, found.isInner_iff, fun doubled => found.join_of_doubled doubled folder,
    fun done => file_exportContract stored output t done target (List.of_mem_zip pair).2⟩

/-- A name that starts with a step upwards is exported beside the other one. -/
theorem exportContract_upwards :
    ({} : Tree).WritesOnly (Inside ((Path.ofText "out").join (.ofText "0a")))
      (exportContract (tablesOf "../A.sol") "0a" "out" {}).2 ∧
    ((exportContract (tablesOf "../A.sol") "0a" "out" {}).2.at? ["out", "0a",
      "A_1.sol"]).isSome := by
  have stored := contract?_tablesOf "../A.sol"
  refine ⟨(exportContract_confined _ "0a" "out" {} stored).2.1 ?_, ?_⟩
  · have first : ¬HasDoubledRoot "A.sol" := mt rootOf_eq_doubled_iff.2 (by decide)
    have second : ¬HasDoubledRoot "../A.sol" := mt rootOf_eq_doubled_iff.2 (by decide)
    show ∀ source ∈ [("A.sol", ""), ("../A.sol", "")], ¬HasDoubledRoot source.1
    simpa using ⟨first, second⟩
  · rw [exportContract_tree stored]
    decide +kernel

/-- **Not every export stays in the folder**: a name with two slashes in front leads to the root. -/
theorem exportContract_leaves_folder :
    sanitize "//etc/passwd" = "///etc/passwd" ∧ ¬IsInner (sanitize "//etc/passwd") ∧
    ((exportContract (tablesOf "//etc/passwd") "0a" "out" {}).2.at? ["/", "etc",
      "passwd.sol"]).isSome ∧
    ¬Inside ((Path.ofText "out").join (.ofText "0a")) ["/", "etc", "passwd.sol"] := by
  have cleaned : sanitize "//etc/passwd" = "///etc/passwd" := by decide
  refine ⟨cleaned, fun inner => inner.relative (by rw [cleaned]; decide), ?_, ?_⟩
  · rw [exportContract_tree (contract?_tablesOf "//etc/passwd")]
    decide +kernel
  · rintro ⟨p, -, e⟩
    have start : ((Path.ofText "out").join (.ofText "0a")).location = ["out", "0a"] := by decide
    rw [start] at e
    exact absurd (congrArg List.head? e) (by simp)

end SelectorCatalog.Export
