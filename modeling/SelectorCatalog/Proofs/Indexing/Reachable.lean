import SelectorCatalog.Proofs.Indexing.Queue

/-!
# Reachable tables

`Database.Reachable` are the tables that an empty database can come to by loading corpora, moving
contracts back to pending and indexing, in any order and however each of these ends. Their rows are
told apart by their ids and can be read back (`Database.Reachable.isStored`), so that indexing can
go through them.

`Database.twoFolders` are such tables: a corpus of two folders was loaded, and both contracts are
pending.
-/

set_option autoImplicit false

namespace SelectorCatalog

namespace Database

/-- Tables that an empty database can come to. -/
inductive Reachable : Database → Prop where
  | empty (cast : TextCast) : Reachable { cast }
  | load {db : Database} (h : Reachable db) (options : LoadOptions) (corpus : CorpusStream) :
      Reachable (db.load options corpus).2
  | reset {db : Database} (h : Reachable db) (statuses : List ContractStatus) :
      Reachable (db.reset statuses)
  | index {σ : Type} {db : Database} (h : Reachable db) (x : Indexer σ)
      (options : IndexOptions) (s : σ) :
      Reachable (x.index options ⟨db, s⟩).2.db

/-- **The contracts of reachable tables can be read back.** -/
theorem Reachable.isStored {db : Database} (h : Reachable db) : db.IsStored := by
  induction h with
  | empty cast => exact isStored_empty cast
  | load _ options corpus ih => exact ih.load options corpus
  | reset _ statuses ih => exact ih.reset statuses
  | index _ x options s ih =>
    exact x.index_preserves options ih ih ih.reset (fun db o _ _ _ stored => stored.record o) s

end Database

/-! ## Two folders -/

/-- A folder with an empty source and the name of its contract. -/
def RawRecord.emptyFolder (name : String) : RawRecord where
  kind := .folder
  origin := name
  payload := .object [
    ("metadata", .object [("ContractName", .text name), ("CompilerVersion", .text "0.8.20")]),
    ("files", .object [("main.sol", .text "")])]

/-- The contract of such a folder. -/
def Contract.ofEmptyFolder (name : String) : Contract where
  name := some name
  compilerVersion := some "0.8.20"
  sources := [("main.sol", "")]
  id := contentId Md5.hexDigest [""] name "0.8.20" {}

/-- The identity text of contents whose digests are in order. -/
theorem identityText_of_ascending {contents : List String} (name version : String)
    (settings : CompilerSettings)
    (ascending : (contents.map (contentDigest Md5.hexDigest)).Pairwise (· ≤ ·)) :
    identityText Md5.hexDigest contents name version settings =
      "|".intercalate [String.join (contents.map (contentDigest Md5.hexDigest)), name, version,
        Json.write (.object settings.storedMembers)] := by
  have sorted : (contents.map (contentDigest Md5.hexDigest)).mergeSort (fun a b => decide (a ≤ b)) =
      contents.map (contentDigest Md5.hexDigest) :=
    List.mergeSort_of_pairwise (ascending.imp fun le => decide_eq_true le)
  rw [identityText, CompilerSettings.toText_eq_write, sorted]

theorem id_ofEmptyFolder_ne :
    (Contract.ofEmptyFolder "A").id ≠ (Contract.ofEmptyFolder "B").id := by
  have alone : ([""].map (contentDigest Md5.hexDigest)).Pairwise (· ≤ ·) :=
    List.pairwise_singleton _ _
  simp only [Contract.ofEmptyFolder, contentId, identityText_of_ascending _ _ _ alone]
  decide +kernel

namespace Database

/-- Tables into which a corpus of two folders was loaded. -/
def twoFolders : Database :=
  (({} : Database).load {} ⟨[.emptyFolder "A", .emptyFolder "B"], none⟩).2

theorem reachable_twoFolders : Reachable twoFolders := .load (.empty _) _ _

theorem twoFolders_eq :
    twoFolders =
      { contracts := [.ofContract .plain (.ofEmptyFolder "A"),
        .ofContract .plain (.ofEmptyFolder "B")] } := by
  have first : (RawRecord.emptyFolder "A").contract = .ok (.ofEmptyFolder "A") := rfl
  have second : (RawRecord.emptyFolder "B").contract = .ok (.ofEmptyFolder "B") := rfl
  have loaded : twoFolders = ({} : Database).store [.ofEmptyFolder "A", .ofEmptyFolder "B"] := by
    simp [twoFolders, load, LoadState.takeAll, first, second, LoadState.see, LoadState.take,
      LoadState.flushFull, LoadState.flush]
  rw [loaded]
  simp [store, storeOne, row?, ContractRow.ofContract, id_ofEmptyFolder_ne]

theorem length_pending_twoFolders (statuses : List ContractStatus) :
    (twoFolders.reset statuses).pending.length = 2 := by
  have status (c : Contract) :
      ((ContractRow.ofContract .plain c).back statuses).status = ContractStatus.pending.label := by
    unfold ContractRow.back
    split <;> rfl
  rw [pending, (KeyOrder.sort_perm ContractRow.id _).length_eq, withStatus, contracts_reset,
    twoFolders_eq]
  simp [status]

end Database

/-- An indexer with no compiler installed. -/
def Indexer.withoutCompiler : Indexer Unit where
  tools := ⟨fun _ => .error (.failure (.notInstalled ⟨0, 8, 20⟩)), .ofRatio false 120 1, {}⟩
  run := fun _ s => (.timedOut, s)

/-- The outcome of every contract without a compiler. -/
def Contract.outcomeWithoutCompiler (c : Contract) : IndexOutcome FunctionRecord :=
  c.failedOutcome FailureKind.missingBinary.label (CompileFailure.notInstalled ⟨0, 8, 20⟩).message

end SelectorCatalog
