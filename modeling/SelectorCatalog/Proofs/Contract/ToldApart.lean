import SelectorCatalog.Proofs.Contract.ContentId
import SelectorCatalog.Proofs.Json.Marks

/-!
# Ids tell contracts apart

An identity text is the digests of the contents, the name, the compiler version and the text of the
settings between bars. The digests are of one length and have no bar, and no bar in the text of
settings stands before the start of another such text, so the digests, the settings, and the name
and version as one text can be read off it (`identityText_eq_iff`). Where the name ends and the
version starts cannot: both may have bars. So, unless digests collide, contracts of records that
have one id have the same settings, the same contents without blanks, and the same name and version
as one text (`RawRecord.id_eq_iff`).
-/

set_option autoImplicit false

namespace SelectorCatalog

/-! ## Digests -/

/-- No two of the messages have one digest. -/
def Md5.TellsApart (messages : List (List UInt8)) : Prop :=
  ∀ a ∈ messages, ∀ b ∈ messages, hexDigest a = hexDigest b → a = b

theorem Md5.bar_not_mem_hexDigest (message : List UInt8) : '|' ∉ (hexDigest message).toList := by
  intro mem
  obtain ⟨d, small, same⟩ := Text.exists_of_mem_hexBytes mem
  exact Json.hexDigit_ne_bar d small same

/-- Texts of one length are read off the text that they are joined to. -/
theorem Text.eq_of_flatMap_toList {k : Nat} (pos : 0 < k) {texts others : List String}
    (length : ∀ s ∈ texts, s.length = k) (length' : ∀ s ∈ others, s.length = k)
    (same : texts.flatMap String.toList = others.flatMap String.toList) : texts = others := by
  have lengths {texts : List String} (h : ∀ s ∈ texts, s.length = k) :
      (texts.map String.toList).map List.length = List.replicate texts.length k := by
    rw [List.map_map]
    exact List.map_eq_replicate_iff.2 fun s mem => s.length_toList.trans (h s mem)
  rw [List.flatMap_def, List.flatMap_def] at same
  have count : texts.length = others.length := by
    have total := congrArg List.length same
    rw [List.length_flatten, List.length_flatten, lengths length, lengths length',
      List.sum_replicate_nat, List.sum_replicate_nat] at total
    exact Nat.eq_of_mul_eq_mul_right pos total
  refine List.map_injective_iff.2 (fun _ _ => String.toList_inj.1)
    (List.eq_iff_flatten_eq.2 ⟨same, ?_⟩)
  rw [lengths length, lengths length', count]

/-- Lists are the same up to order if their images under a map are, and the map tells their items
apart. -/
theorem perm_of_perm_map {α β : Type} {f : α → β} {items others : List α}
    (apart : ∀ a ∈ items, ∀ b ∈ others, f a = f b → a = b)
    (perm : (items.map f).Perm (others.map f)) : items.Perm others := by
  induction items generalizing others with
  | nil => rw [List.map_eq_nil_iff.1 perm.symm.eq_nil]
  | cons a items ih =>
    have ⟨first, more⟩ := List.forall_mem_cons.1 apart
    obtain ⟨b, there, same⟩ := List.mem_map.1 (perm.subset List.mem_cons_self)
    obtain rfl := first b there same.symm
    obtain ⟨before, after, rfl⟩ := List.append_of_mem there
    have front : (before ++ a :: after).Perm (a :: (before ++ after)) := List.perm_middle
    have rest : (items.map f).Perm ((before ++ after).map f) := (perm.trans (front.map f)).cons_inv
    refine ((ih (fun c mem b there => ?_) rest).cons a).trans front.symm
    exact more c mem b (front.symm.subset (List.mem_cons_of_mem a there))

theorem Md5.TellsApart.text_inj {messages : List (List UInt8)} (h : TellsApart messages)
    {s t : String} (left : Text.utf8 s.toList ∈ messages) (right : Text.utf8 t.toList ∈ messages)
    (same : hexDigest (Text.utf8 s.toList) = hexDigest (Text.utf8 t.toList)) : s = t :=
  String.toList_inj.1 (Text.utf8_inj (h _ left _ right same))

/-- A written object starts with the name of its first member. -/
theorem Json.exists_toList_writeObject (k : String) (v : Value) (members : List (String × Value)) :
    ∃ more, (write (.object ((k, v) :: members))).toList =
      '\x7b' :: '"' :: (k.toList.flatMap writtenChar ++ more) := by
  obtain ⟨texts, split⟩ := exists_intercalate_cons [',', ' '] (memberText (k, (write v).toList))
    (members.map fun m => memberText (m.1, (write m.2).toList))
  rw [write, String.toList_append, String.toList_append, toList_writeMembers, List.map_cons, split]
  exact ⟨'"' :: ':' :: ' ' :: ((write v).toList ++ texts ++ ['\x7d']), by simp [memberText]⟩

/-! ## Settings -/

namespace CompilerSettings

theorem toText_starts (s : CompilerSettings) :
    ∃ more, s.toText.toList = '\x7b' :: '"' :: 'e' :: more := by
  rw [toText_eq_write]
  obtain ⟨more, starts⟩ := Json.exists_toList_writeObject _ _ _
  exact ⟨_, starts⟩

theorem unmarked_toText (s : CompilerSettings) (short : s.HasShortRuns) :
    Json.Unmarked s.toText.toList := by
  rw [toText_eq_write]
  exact Json.unmarked_write (plain_storedMembers short)

/-- **Settings have one stored text exactly if they agree.** -/
theorem toText_eq_iff {s t : CompilerSettings} (short : s.HasShortRuns) (short' : t.HasShortRuns) :
    s.toText = t.toText ↔ s.Agrees t := by
  constructor
  · intro same
    have read := ofText_toText short
    rw [same, ofText_toText short'] at read
    have inOrder : t.inOrder = s.inOrder := Except.ok.inj read
    exact s.agrees_inOrder.symm.trans (inOrder ▸ t.agrees_inOrder)
  · exact Agrees.toText_eq

end CompilerSettings

/-! ## Identity texts -/

/-- The digests of contents without blanks, in order. -/
def sortedDigests (contents : List String) : List String :=
  KeyOrder.sort id (contents.map (contentDigest Md5.hexDigest))

theorem sortedDigests_perm (contents : List String) :
    (sortedDigests contents).Perm (contents.map (contentDigest Md5.hexDigest)) :=
  KeyOrder.sort_perm id _

theorem sortedDigests_eq_iff {contents others : List String} :
    sortedDigests contents = sortedDigests others ↔
      (contents.map (contentDigest Md5.hexDigest)).Perm
        (others.map (contentDigest Md5.hexDigest)) := by
  refine ⟨fun same => ?_, KeyOrder.sort_texts_of_perm⟩
  exact (sortedDigests_perm contents).symm.trans (same ▸ sortedDigests_perm others)

theorem exists_of_mem_sortedDigests {contents : List String} {digest : String}
    (mem : digest ∈ sortedDigests contents) : ∃ message, Md5.hexDigest message = digest := by
  obtain ⟨content, -, same⟩ := List.mem_map.1 ((sortedDigests_perm contents).subset mem)
  exact ⟨_, same⟩

theorem length_of_mem_sortedDigests {contents : List String} :
    ∀ digest ∈ sortedDigests contents, digest.length = 32 := by
  intro digest mem
  obtain ⟨message, rfl⟩ := exists_of_mem_sortedDigests mem
  exact Md5.length_hexDigest message

theorem bar_not_mem_sortedDigests (contents : List String) :
    '|' ∉ (sortedDigests contents).flatMap String.toList := by
  intro mem
  obtain ⟨digest, there, mem⟩ := List.mem_flatMap.1 mem
  obtain ⟨message, rfl⟩ := exists_of_mem_sortedDigests there
  exact Md5.bar_not_mem_hexDigest message mem

theorem toList_identityText (contents : List String) (name version : String)
    (settings : CompilerSettings) :
    (identityText Md5.hexDigest contents name version settings).toList =
      (sortedDigests contents).flatMap String.toList ++
        '|' :: ((name ++ "|" ++ version).toList ++ '|' :: settings.toText.toList) := by
  show ("|".intercalate [String.join (sortedDigests contents), name, version,
      settings.toText]).toList = _
  rw [← String.toList_join]
  simp

/-- **What can be read off an identity text**: the digests of the contents up to order, the name and
the version as one text, and the settings. -/
theorem identityText_eq_iff {contents others : List String} {name version name' version' : String}
    {s t : CompilerSettings} (short : s.HasShortRuns) (short' : t.HasShortRuns) :
    identityText Md5.hexDigest contents name version s =
        identityText Md5.hexDigest others name' version' t ↔
      (contents.map (contentDigest Md5.hexDigest)).Perm (others.map (contentDigest Md5.hexDigest)) ∧
        name ++ "|" ++ version = name' ++ "|" ++ version' ∧ s.Agrees t := by
  rw [← sortedDigests_eq_iff, ← CompilerSettings.toText_eq_iff short short', ← String.toList_inj,
    toList_identityText, toList_identityText]
  constructor
  · intro same
    obtain ⟨front, rest⟩ :=
      Json.append_bar_inj (bar_not_mem_sortedDigests contents)
        (bar_not_mem_sortedDigests others) same
    obtain ⟨between, settings⟩ :=
      Json.eq_of_bar_append (s.unmarked_toText short) (t.unmarked_toText short') s.toText_starts
        t.toText_starts rest
    have digests := Text.eq_of_flatMap_toList
      (by decide) length_of_mem_sortedDigests length_of_mem_sortedDigests front
    exact ⟨digests, String.toList_inj.1 between, String.toList_inj.1 settings⟩
  · rintro ⟨digests, between, settings⟩
    rw [digests, between, settings]

/-! ## Contracts -/

namespace Contract

/-- The name and the compiler version with a bar between them. -/
def nameAndVersion (c : Contract) : String := c.name.getD "" ++ "|" ++ c.compilerVersion.getD ""

/-- The text that the id is the digest of. -/
def identity (c : Contract) : String :=
  identityText Md5.hexDigest (c.sources.map Prod.snd) (c.name.getD "")
    (c.compilerVersion.getD "") c.settings

/-- The message whose digest is the id. -/
def identityMessage (c : Contract) : List UInt8 := Text.utf8 c.identity.toList

/-- The messages whose digests stand in the identity text. -/
def contentMessages (c : Contract) : List (List UInt8) :=
  (blankFree (c.sources.map Prod.snd)).map fun content => Text.utf8 content.toList

variable {c d : Contract}

theorem IsNormal.named (h : c.IsNormal) :
    ∃ name version, c.name = some name ∧ c.compilerVersion = some version := by
  obtain ⟨name, version, named, versioned, -⟩ := identify_eq_ok.1 h.identified
  exact ⟨name, version, named, versioned⟩

theorem IsNormal.id_eq (h : c.IsNormal) : c.id = Md5.hexDigest c.identityMessage := by
  obtain ⟨name, version, named, versioned, -, same⟩ := identify_eq_ok.1 h.identified
  rw [identityMessage, identity, named, versioned]
  exact same.symm

/-- Contracts in normal form have one id exactly if what can be read off their identity texts is the
same. -/
theorem IsNormal.id_eq_id_iff (h : c.IsNormal) (h' : d.IsNormal)
    (contents : Md5.TellsApart (c.contentMessages ++ d.contentMessages))
    (identities : Md5.TellsApart [c.identityMessage, d.identityMessage]) :
    c.id = d.id ↔
      (blankFree (c.sources.map Prod.snd)).Perm (blankFree (d.sources.map Prod.snd)) ∧
        c.nameAndVersion = d.nameAndVersion ∧ c.settings.Agrees d.settings := by
  have whole : c.id = d.id ↔ c.identity = d.identity := by
    rw [h.id_eq, h'.id_eq, identityMessage, identityMessage]
    constructor
    · exact identities.text_inj List.mem_cons_self (List.mem_cons_of_mem _ List.mem_cons_self)
    · intro same
      rw [same]
  rw [whole, identity, identity, identityText_eq_iff h.settings.runs h'.settings.runs,
    map_contentDigest, map_contentDigest]
  refine and_congr_left fun _ => ⟨fun perm => ?_, fun perm => perm.map _⟩
  refine perm_of_perm_map (fun s left t right => ?_) perm
  exact contents.text_inj (List.mem_append_left _ (List.mem_map_of_mem left))
    (List.mem_append_right _ (List.mem_map_of_mem right))

/-- The name and the version are told apart if no name, or no version, has a bar. -/
theorem IsNormal.name_eq_of_nameAndVersion (h : c.IsNormal) (h' : d.IsNormal)
    (same : c.nameAndVersion = d.nameAndVersion)
    (no_bar : (∀ e ∈ [c, d], ∀ name ∈ e.name, '|' ∉ name.toList) ∨
      ∀ e ∈ [c, d], ∀ version ∈ e.compilerVersion, '|' ∉ version.toList) :
    c.name = d.name ∧ c.compilerVersion = d.compilerVersion := by
  obtain ⟨name, version, named, versioned⟩ := h.named
  obtain ⟨name', version', named', versioned'⟩ := h'.named
  have joined : name.toList ++ '|' :: version.toList = name'.toList ++ '|' :: version'.toList := by
    simpa [nameAndVersion, named, versioned, named', versioned'] using congrArg String.toList same
  have parts : name.toList = name'.toList ∧ version.toList = version'.toList := by
    obtain names | versions := no_bar
    · exact Json.append_bar_inj (names c (by simp) name named)
        (names d (by simp) name' named') joined
    · have backwards : version.toList.reverse ++ '|' :: name.toList.reverse =
          version'.toList.reverse ++ '|' :: name'.toList.reverse := by
        simpa using congrArg List.reverse joined
      obtain ⟨ends, fronts⟩ :=
        Json.append_bar_inj (mt List.mem_reverse.1 (versions c (by simp) version versioned))
        (mt List.mem_reverse.1 (versions d (by simp) version' versioned')) backwards
      exact ⟨List.reverse_inj.1 fronts, List.reverse_inj.1 ends⟩
  rw [named, versioned, named', versioned', String.toList_inj.1 parts.1,
    String.toList_inj.1 parts.2]
  exact ⟨rfl, rfl⟩

end Contract

/-- **Ids tell the contracts of records apart**, unless digests collide: contracts with one id have
the same settings, the same contents without blanks up to order, and the same name and version as
one text; they have the same name and the same version if no name, or no version, has a bar. So
storing drops a contract only if it is the same in all this as the one that was stored. -/
theorem RawRecord.id_eq_iff {r s : RawRecord} {c d : Contract} (first : r.normalize = .ok c)
    (second : s.normalize = .ok d)
    (contents : Md5.TellsApart (c.contentMessages ++ d.contentMessages))
    (identities : Md5.TellsApart [c.identityMessage, d.identityMessage]) :
    (c.id = d.id ↔
      (blankFree (c.sources.map Prod.snd)).Perm (blankFree (d.sources.map Prod.snd)) ∧
        c.nameAndVersion = d.nameAndVersion ∧ c.settings.Agrees d.settings) ∧
    (((∀ e ∈ [c, d], ∀ name ∈ e.name, '|' ∉ name.toList) ∨
        ∀ e ∈ [c, d], ∀ version ∈ e.compilerVersion, '|' ∉ version.toList) →
      c.id = d.id → c.name = d.name ∧ c.compilerVersion = d.compilerVersion) ∧
    ∀ db : Database, db.row? d.id = none → (db.store [c, d] = db.store [c] ↔ c.id = d.id) := by
  have normal := (normalize_isNormal r c first).1
  have normal' := (normalize_isNormal s d second).1
  have ids := normal.id_eq_id_iff normal' contents identities
  refine ⟨ids, fun no_bar same => ?_, fun db fresh => Database.store_pair_eq_iff fresh⟩
  exact normal.name_eq_of_nameAndVersion normal' (ids.1 same).2.1 no_bar

/-- The contracts of two folders that differ in the name have different ids. -/
theorem RawRecord.id_eq_iff_emptyFolder :
    let c := Contract.ofEmptyFolder "A"
    let d := Contract.ofEmptyFolder "B"
    (emptyFolder "A").normalize = .ok c ∧ (emptyFolder "B").normalize = .ok d ∧
      Md5.TellsApart (c.contentMessages ++ d.contentMessages) ∧
      Md5.TellsApart [c.identityMessage, d.identityMessage] ∧ c.id ≠ d.id := by
  intro c d
  have first : (emptyFolder "A").normalize = .ok c := rfl
  have second : (emptyFolder "B").normalize = .ok d := rfl
  have contents : Md5.TellsApart (c.contentMessages ++ d.contentMessages) := by
    show Md5.TellsApart [Text.utf8 "".toList, Text.utf8 "".toList]
    simp [Md5.TellsApart]
  have identities : Md5.TellsApart [c.identityMessage, d.identityMessage] := by
    have other : Md5.hexDigest c.identityMessage ≠ Md5.hexDigest d.identityMessage :=
      id_ofEmptyFolder_ne
    simp [Md5.TellsApart, other, other.symm]
  refine ⟨first, second, contents, identities, fun same => ?_⟩
  have parts := (id_eq_iff first second contents identities).1.1 same
  exact absurd parts.2.1 (by decide)

/-- A folder with an empty source, the name of its contract and a compiler version. -/
def RawRecord.emptyFolderOf (name version : String) : RawRecord where
  kind := .folder
  origin := name
  payload := .object [
    ("metadata", .object [("ContractName", .text name), ("CompilerVersion", .text version)]),
    ("files", .object [("main.sol", .text "")])]

/-- **A bar may be of the name or of the version**: two folders whose contracts have different names
and versions have one id, as digest of one message, and the second contract is not stored. -/
theorem RawRecord.exists_id_shared :
    ∃ c d, (emptyFolderOf "A|B" "0.8.20").normalize = .ok c ∧
      (emptyFolderOf "A" "B|0.8.20").normalize = .ok d ∧
      c.identityMessage = d.identityMessage ∧ c.id = d.id ∧ c.name ≠ d.name ∧
      c.compilerVersion ≠ d.compilerVersion ∧
      ({} : Database).store [c, d] = ({} : Database).store [c] := by
  have text : identityText Md5.hexDigest [""] "A|B" "0.8.20" {} =
      identityText Md5.hexDigest [""] "A" "B|0.8.20" {} := by
    have joined : "A|B" ++ "|" ++ "0.8.20" = "A" ++ "|" ++ "B|0.8.20" := by decide
    rw [← String.toList_inj, toList_identityText, toList_identityText, joined]
  have message := congrArg (fun text : String => Text.utf8 text.toList) text
  have id := congrArg Md5.hexDigest message
  exact ⟨_, _, rfl, rfl, message, id, by decide, by decide, (Database.store_pair_eq_iff rfl).2 id⟩

end SelectorCatalog
