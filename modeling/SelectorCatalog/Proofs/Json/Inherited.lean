import SelectorCatalog.Proofs.Json.Extent

/-!
# What a document that is read has from its parts

A property that words, numbers and texts have, and that lists and objects have from their parts,
holds of every document that is read (`Json.Inherits.parse`). It is led through the reader once, for
every such property.
-/

set_option autoImplicit false

namespace SelectorCatalog.Json

/-- A property of values that is led on from the parts of a document to the whole as the reader puts
it together. -/
structure Inherits (P : Value → Prop) : Prop where
  word : ∀ e ∈ wordValues, P e.2
  number : ∀ s : List Char, Yields (readNumber s) fun found => P found.1
  text : ∀ s : String, P (.text s)
  list : ∀ {items : List Value}, (∀ v ∈ items, P v) → P (.list items)
  empty : P (.object [])
  set : ∀ {members : List (String × Value)} (name : String) {v : Value},
    P (.object members) → P v → P (.object (Assoc.set name v members))

namespace Inherits

variable {P : Value → Prop}

theorem readPlain (h : Inherits P) (s : List Char) :
    Yields (readPlain s) fun found => P found.1 := by
  unfold Json.readPlain
  split
  · rename_i v found
    obtain ⟨e, mem, read⟩ := List.exists_of_findSome?_eq_some found
    obtain ⟨rest, -, rfl⟩ := Option.map_eq_some_iff.1 read
    exact .ok (h.word e mem)
  · exact h.number s

mutual

theorem readValue (h : Inherits P) :
    ∀ (fuel : Nat) (s : List Char), Yields (readValue fuel s) fun found => P found.1
  | 0, _ => .error _ _
  | fuel + 1, s => by
    unfold Json.readValue
    split
    · exact .map fun _ _ => h.text _
    · split
      · exact .ok h.empty
      · exact .map (readMembers h fuel h.empty _)
    · split
      · exact .ok (h.list (by simp))
      · exact .map fun found read => h.list (readItems h fuel _ found read)
    · exact h.readPlain s

theorem readMembers (h : Inherits P) :
    ∀ (fuel : Nat) {found : List (String × Value)}, P (.object found) →
    ∀ s : List Char, Yields (readMembers fuel found s) fun read => P (.object read.1)
  | 0, _, _, _ => .error _ _
  | fuel + 1, found, members, s => by
    unfold Json.readMembers
    split
    · refine .skip fun name => ?_
      split
      split
      · refine .bind (readValue h fuel _) fun read value => ?_
        dsimp only
        split
        · exact .pure (h.set _ members value)
        · exact readMembers h fuel (h.set _ members value) _
        · exact .error _ _
      · exact .error _ _
    · exact .error _ _

theorem readItems (h : Inherits P) :
    ∀ (fuel : Nat) (s : List Char), Yields (readItems fuel s) fun read => ∀ v ∈ read.1, P v
  | 0, _ => .error _ _
  | fuel + 1, s => by
    unfold Json.readItems
    refine .bind (readValue h fuel s) fun read value => ?_
    dsimp only
    split
    · exact .pure (by simpa using value)
    · refine .bind (readItems h fuel _) fun others each => ?_
      exact .pure (List.forall_mem_cons.2 ⟨value, each⟩)
    · exact .error _ _

end

theorem readWhole (h : Inherits P) (s : List Char) : Yields (readWhole s) P := by
  intro v whole
  obtain ⟨-, gap, read, -⟩ := readWhole_eq_ok.1 whole
  exact h.readValue _ _ _ read

theorem read (h : Inherits P) (s : String) : Yields (read s) P := by
  unfold Json.read
  split
  · rename_i v found
    exact .ok (h.readWhole _ v found)
  · exact .error _ _
  · exact .error _ _

/-- **A document that is read has what it inherits from its parts.** -/
theorem parse (h : Inherits P) (s : String) : Yields (parse s) P := (h.read s).mapError _

end Inherits

end SelectorCatalog.Json
