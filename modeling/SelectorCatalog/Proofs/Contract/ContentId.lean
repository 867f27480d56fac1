import SelectorCatalog.Proofs.Database.Kept

/-!
# Ids do not depend on the layout

The id of a contract is a digest of its identity text. The order of the sources, blanks in them,
their paths and the order of the libraries do not enter this text (`identityText_congr`), so
contracts that differ in nothing else have one id (`Contract.identify_congr`).
-/

set_option autoImplicit false

namespace SelectorCatalog

/-! ## Settings up to the order of libraries -/

/-- Maps with the same values have one form in order. -/
theorem OrderedMap.inOrder_congr {α : Type} {m n : OrderedMap α}
    (same : ∀ name, m.get? name = n.get? name) :
    m.inOrder = n.inOrder := by
  refine ext' (KeyOrder.sort_eq_of_perm Prod.fst ?_ (KeyOrder.pairwise_sort_lt n.nodup))
  exact (entries_perm same).trans (KeyOrder.sort_perm Prod.fst n.entries).symm

namespace CompilerSettings.Agrees

variable {s t u : CompilerSettings}

theorem symm (h : s.Agrees t) : t.Agrees s :=
  ⟨h.optimizerEnabled.symm, h.optimizerRuns.symm, h.evmVersion.symm,
    h.remappings.symm, h.viaIr.symm, fun unit => (h.libraries unit).symm⟩

theorem trans (h : s.Agrees t) (g : t.Agrees u) : s.Agrees u :=
  ⟨h.optimizerEnabled.trans g.optimizerEnabled, h.optimizerRuns.trans g.optimizerRuns,
    h.evmVersion.trans g.evmVersion, h.remappings.trans g.remappings, h.viaIr.trans g.viaIr,
    fun unit => (h.libraries unit).trans (g.libraries unit)⟩

/-- Settings that agree are the same with their libraries in order. -/
theorem inOrder_eq (h : s.Agrees t) : s.inOrder = t.inOrder := by
  have units : (s.libraries.mapValues OrderedMap.inOrder).inOrder =
      (t.libraries.mapValues OrderedMap.inOrder).inOrder := by
    refine OrderedMap.inOrder_congr fun unit => ?_
    have same := h.libraries unit
    rw [OrderedMap.get?_mapValues, OrderedMap.get?_mapValues]
    cases left : s.libraries.get? unit with
    | none =>
      cases right : t.libraries.get? unit with
      | none => rfl
      | some n =>
        rw [left, right] at same
        cases same
    | some m =>
      cases right : t.libraries.get? unit with
      | none =>
        rw [left, right] at same
        cases same
      | some n =>
        rw [left, right] at same
        exact congrArg some (OrderedMap.inOrder_congr (congrFun (Option.some.inj same)))
  obtain ⟨enabled, runs, version, remappings, libraries, viaIr⟩ := s
  obtain ⟨rfl, rfl, rfl, rfl, rfl, -⟩ := h
  exact congrArg (fun m => { t.inOrder with libraries := m }) units

/-- **Settings that agree have one stored text.** -/
theorem toText_eq (h : s.Agrees t) : s.toText = t.toText := by
  rw [← s.toText_inOrder, ← t.toText_inOrder, h.inOrder_eq]

/-- Settings that agree are written alike, or both are refused. -/
theorem dump_eq (h : s.Agrees t) : s.dump = t.dump := by
  have runs : s.HasShortRuns ↔ t.HasShortRuns := by
    unfold HasShortRuns
    rw [h.optimizerRuns]
  rw [CompilerSettings.dump_eq, CompilerSettings.dump_eq, h.toText_eq]
  exact if_congr runs rfl rfl

end CompilerSettings.Agrees

/-! ## Identity texts -/

/-- The contents of sources without their blanks. -/
def blankFree (contents : List String) : List String := contents.map Text.dropBlanks

theorem map_contentDigest (digest : List UInt8 → String) (contents : List String) :
    contents.map (contentDigest digest) =
      (blankFree contents).map fun content => digest (Text.utf8 content.toList) := by
  rw [blankFree, List.map_map]
  rfl

/-- **The order of contents and the blanks in them do not enter the identity text.** -/
theorem identityText_congr (digest : List UInt8 → String) {contents others : List String}
    (perm : (blankFree contents).Perm (blankFree others)) (name version : String)
    {s t : CompilerSettings} (settings : s.Agrees t) :
    identityText digest contents name version s = identityText digest others name version t := by
  have digests : KeyOrder.sort id (contents.map (contentDigest digest)) =
      KeyOrder.sort id (others.map (contentDigest digest)) := by
    rw [map_contentDigest, map_contentDigest]
    exact KeyOrder.sort_texts_of_perm (perm.map _)
  unfold identityText
  rw [settings.toText_eq]
  exact congrArg (fun sorted => "|".intercalate [String.join sorted, name, version,
    t.toText]) digests

/-! ## Contracts -/

namespace Contract

/-- Contracts that differ in their layout only: some order of the sources of the one has the
contents of the other, blanks apart, and the settings differ in the order of libraries. -/
structure SameButLayout (c d : Contract) : Prop where
  name : c.name = d.name
  compilerVersion : c.compilerVersion = d.compilerVersion
  settings : c.settings.Agrees d.settings
  sources : ∃ reordered, reordered.Perm d.sources ∧
    List.Forall₂ (fun s t => Text.dropBlanks s.2 = Text.dropBlanks t.2) c.sources reordered

variable {c d : Contract}

theorem SameButLayout.blankFree_perm (h : c.SameButLayout d) :
    (blankFree (c.sources.map Prod.snd)).Perm (blankFree (d.sources.map Prod.snd)) := by
  obtain ⟨reordered, perm, pairs⟩ := h.sources
  have same : blankFree (c.sources.map Prod.snd) = blankFree (reordered.map Prod.snd) := by
    rw [blankFree, blankFree, List.map_map, List.map_map, ← List.forall₂_eq_eq_eq,
      List.forall₂_map_left_iff, List.forall₂_map_right_iff]
    exact pairs
  rw [same]
  exact (perm.map Prod.snd).map Text.dropBlanks

/-- **Contracts that differ in their layout only have one id**, and they have one exactly if they
have a name, a compiler version, and a number of optimizer runs that can be written. -/
theorem identify_congr (h : c.SameButLayout d) :
    c.identify = d.identify ∧
      (Succeeds c.identify ↔
        (∃ name, c.name = some name) ∧ (∃ version, c.compilerVersion = some version) ∧
          c.settings.HasShortRuns) := by
  refine ⟨?_, ?_, ?_⟩
  · unfold identify
    rw [h.settings.dump_eq, h.name, h.compilerVersion]
    congr 1
    funext text
    split
    · rename_i name version _ _
      unfold contentId
      rw [identityText_congr Md5.hexDigest h.blankFree_perm name version h.settings]
    · rfl
  · rintro ⟨id, identified⟩
    obtain ⟨name, version, named, versioned, short, -⟩ := identify_eq_ok.1 identified
    exact ⟨⟨name, named⟩, ⟨version, versioned⟩, short⟩
  · rintro ⟨⟨name, named⟩, ⟨version, versioned⟩, short⟩
    exact ⟨_, identify_eq_ok.2 ⟨name, version, named, versioned, short, rfl⟩⟩

/-- Two sources that use two libraries. -/
def ofTwoSources (sources : List (String × String)) (libraries : OrderedMap (OrderedMap String)) :
    Contract where
  name := some "A"
  compilerVersion := some "0.8.20"
  sources := sources
  settings := { libraries }

/-- Two libraries in either order, used by the first of two source units, in either order. -/
def twoLibraries : OrderedMap (OrderedMap String) :=
  ⟨[("a.sol", ⟨[("L", "0x1"), ("M", "0x2")], by decide⟩), ("b.sol", .empty)], by decide⟩

/-- The same libraries the other way round at both levels. -/
def twoLibrariesSwapped : OrderedMap (OrderedMap String) :=
  ⟨[("b.sol", .empty), ("a.sol", ⟨[("M", "0x2"), ("L", "0x1")], by decide⟩)], by decide⟩

theorem agrees_twoLibraries :
    ({ libraries := twoLibraries } : CompilerSettings).Agrees
      { libraries := twoLibrariesSwapped } := by
  refine ⟨rfl, rfl, rfl, rfl, rfl, fun unit => ?_⟩
  have names : OrderedMap.get? ⟨[("L", "0x1"), ("M", "0x2")], by decide⟩ =
      OrderedMap.get? ⟨[("M", "0x2"), ("L", "0x1")], by decide⟩ :=
    funext fun name => Assoc.get?_of_perm (.swap _ _ _) (by decide) name
  by_cases first : "a.sol" = unit
  · subst first
    exact congrArg some names
  · simp [twoLibraries, twoLibrariesSwapped, OrderedMap.get?, Assoc.get?, first]

/-- Sources in another order, under other paths and with other blanks, and libraries in another
order. -/
theorem identify_congr_twoSources :
    let c := ofTwoSources [("a.sol", "contract A {}"), ("b.sol", "library B {}")] twoLibraries
    let d := ofTwoSources [("x/b.sol", "library\tB{ }"),
      ("x/a.sol", "\ncontract A { }")] twoLibrariesSwapped
    c.identify = d.identify ∧ Succeeds c.identify := by
  intro c d
  have layout : c.SameButLayout d := by
    refine ⟨rfl, rfl, agrees_twoLibraries,
      [("x/a.sol", "\ncontract A { }"), ("x/b.sol", "library\tB{ }")], .swap _ _ _, ?_⟩
    exact .cons (by decide) (.cons (by decide) .nil)
  have short : c.settings.HasShortRuns := show Text.IsShort 200 by decide
  exact ⟨(identify_congr layout).1, (identify_congr layout).2.2 ⟨⟨"A", rfl⟩,
    ⟨"0.8.20", rfl⟩, short⟩⟩

end Contract

end SelectorCatalog
