import SelectorCatalog.Proofs.Functions.Interface

/-!
# Signatures are unambiguous

A signature is flat text: a name, and between parentheses the types of the inputs, structured ones
written as tuples within it. The name and the tree of types can be told from it all the same, so two
entries have one signature exactly if they have one name and the same types
(`Abi.canonicalSignature_eq_iff`).

A type is told from the text that begins with it: words end where a parenthesis or a comma stands,
and a tuple ends at its own parenthesis (`Abi.TypeTree.signs_inj`).
-/

set_option autoImplicit false

namespace SelectorCatalog.Abi

/-! ## Words -/

/-- A character that parts the words of a signature. -/
def isDelimiter (c : Char) : Bool := c == '(' || c == ')' || c == ','

/-- A text without parentheses and commas. -/
@[ext]
structure Word where
  chars : List Char
  plain : ∀ c ∈ chars, isDelimiter c = false

/-- The rest of a signature after a word. -/
def EndsWord (rest : List Char) : Prop := ∀ c ∈ rest.head?, isDelimiter c = true

theorem endsWord_cons {c : Char} (h : isDelimiter c = true) (rest : List Char) :
    EndsWord (c :: rest) := by
  intro d head
  cases head
  exact h

theorem Word.takeWhile_append (w : Word) {rest : List Char} (ends : EndsWord rest) :
    (w.chars ++ rest).takeWhile (!isDelimiter ·) = w.chars := by
  rw [List.takeWhile_append_of_pos fun c mem => by rw [w.plain c mem]; rfl]
  cases rest with
  | nil => simp
  | cons c rest => simp [ends c rfl]

/-- A word ends where its text says so. -/
theorem Word.append_inj {w v : Word} {rest others : List Char} (ends : EndsWord rest)
    (ends' : EndsWord others) (h : w.chars ++ rest = v.chars ++ others) :
    w = v ∧ rest = others := by
  have same : w = v := by
    ext1
    rw [← w.takeWhile_append ends, h, v.takeWhile_append ends']
  subst same
  exact ⟨rfl, List.append_cancel_left h⟩

/-! ## Types -/

/-- The name of an elementary type. -/
@[ext]
structure ElementaryName extends Word where
  nonempty : chars ≠ []
  unstructured : ¬tupleWord <+: chars

/-- No name of an elementary type begins like a tuple, or like the end of one. -/
theorem ElementaryName.append_ne (name : ElementaryName) {c : Char} (h : isDelimiter c = true)
    (rest others : List Char) : name.chars ++ rest ≠ c :: others := by
  intro same
  obtain ⟨d, more, split⟩ := List.exists_cons_of_ne_nil name.nonempty
  have plain := name.plain d (split ▸ List.mem_cons_self)
  rw [split] at same
  cases same
  exact absurd plain (by simp [h])

/-- The type of a parameter: an elementary one, or a tuple of types with the dimensions of an
array. -/
inductive TypeTree where
  | elementary (name : ElementaryName)
  | tuple (components : List TypeTree) (dimensions : Word)

mutual

/-- The parameter has the type. Its name does not matter, nor do other members. -/
inductive HasType : Value → TypeTree → Prop
  | elementary {ms : List (String × Value)} {name : ElementaryName}
    (typed : Assoc.get? "type" ms = some (.text (String.ofList name.chars))) :
    HasType (.object ms) (.elementary name)
  | tuple {ms : List (String × Value)} {params : List Value} {components : List TypeTree}
    {dimensions : Word}
    (typed : Assoc.get? "type" ms = some (.text (String.ofList (tupleWord ++ dimensions.chars))))
    (listed : (Assoc.get? "components" ms).getD (.list []) = .list params)
    (each : HasTypes params components) : HasType (.object ms) (.tuple components dimensions)

/-- The parameters have the types, in order. -/
inductive HasTypes : List Value → List TypeTree → Prop
  | nil : HasTypes [] []
  | cons {p : Value} {params : List Value} {t : TypeTree} {types : List TypeTree}
    (first : HasType p t) (others : HasTypes params types) : HasTypes (p :: params) (t :: types)

end

/-- The entry of a function with the name, whose inputs have the types. -/
structure HasSignature (ms : List (String × Value)) (name : Word)
    (inputs : List TypeTree) : Prop where
  name : Assoc.get? "name" ms = some (.text (String.ofList name.chars))
  inputs : ∃ params, (Assoc.get? "inputs" ms).getD (.list []) = .list params ∧
    HasTypes params inputs

namespace TypeTree

mutual

/-- The type in a signature. -/
def signs : TypeTree → List Char
  | elementary name => name.chars
  | tuple components dimensions => '(' :: (signsList components ++ ')' :: dimensions.chars)

/-- Types in a signature, between commas. -/
def signsList : List TypeTree → List Char
  | [] => []
  | t :: types => t.signs ++ signsRest types

/-- Types in a signature after other types. -/
def signsRest : List TypeTree → List Char
  | [] => []
  | t :: types => ',' :: (t.signs ++ signsRest types)

end

theorem signsList_cons_ne (t : TypeTree) (types : List TypeTree) (rest others : List Char) :
    signsList (t :: types) ++ rest ≠ ')' :: others := by
  rw [signsList, List.append_assoc]
  cases t with
  | elementary name => exact name.append_ne rfl _ _
  | tuple components dimensions => simp [signs]

theorem endsWord_signsRest (types : List TypeTree) (rest : List Char) :
    EndsWord (signsRest types ++ ')' :: rest) := by
  cases types with
  | nil => exact endsWord_cons rfl _
  | cons t types =>
    rw [signsRest]
    exact endsWord_cons rfl _

mutual

/-- **A type is told from the text that begins with it.** -/
theorem signs_inj : ∀ {t u : TypeTree} {rest others : List Char}, EndsWord rest → EndsWord others →
    t.signs ++ rest = u.signs ++ others → t = u ∧ rest = others
  | elementary name, elementary name', _, _, ends, ends', h => by
    obtain ⟨same, left⟩ := Word.append_inj ends ends' h
    exact ⟨congrArg elementary (ElementaryName.ext (congrArg Word.chars same)), left⟩
  | elementary name, tuple _ _, _, _, _, _, h => absurd h (name.append_ne rfl _ _)
  | tuple _ _, elementary name, _, _, _, _, h => absurd h.symm (name.append_ne rfl _ _)
  | tuple components dimensions, tuple components' dimensions', _, _, ends, ends', h => by
    rw [signs, signs] at h
    simp only [List.cons_append, List.append_assoc, List.cons.injEq, true_and] at h
    obtain ⟨rfl, left⟩ := signsList_inj h
    obtain ⟨rfl, rest⟩ := Word.append_inj ends ends' left
    exact ⟨rfl, rest⟩

theorem signsList_inj : ∀ {types types' : List TypeTree} {rest others : List Char},
    signsList types ++ ')' :: rest = signsList types' ++ ')' :: others →
      types = types' ∧ rest = others
  | [], [], _, _, h => ⟨rfl, (List.cons.inj h).2⟩
  | [], u :: types', _, _, h => (signsList_cons_ne _ _ _ _ h.symm).elim
  | t :: types, [], _, _, h => (signsList_cons_ne _ _ _ _ h).elim
  | t :: types, u :: types', _, _, h => by
    rw [signsList, signsList, List.append_assoc, List.append_assoc] at h
    obtain ⟨rfl, left⟩ := signs_inj (endsWord_signsRest _ _) (endsWord_signsRest _ _) h
    obtain ⟨rfl, same⟩ := signsRest_inj left
    exact ⟨rfl, same⟩

theorem signsRest_inj : ∀ {types types' : List TypeTree} {rest others : List Char},
    signsRest types ++ ')' :: rest = signsRest types' ++ ')' :: others →
      types = types' ∧ rest = others
  | [], [], _, _, h => ⟨rfl, (List.cons.inj h).2⟩
  | [], u :: types', _, _, h => by simp [signsRest] at h
  | t :: types, [], _, _, h => by simp [signsRest] at h
  | t :: types, u :: types', _, _, h => by
    rw [signsRest, signsRest, List.cons_append, List.cons_append, List.append_assoc,
      List.append_assoc] at h
    obtain ⟨rfl, left⟩ :=
      signs_inj (endsWord_signsRest _ _) (endsWord_signsRest _ _) (List.cons.inj h).2
    obtain ⟨rfl, same⟩ := signsRest_inj left
    exact ⟨rfl, same⟩

end

end TypeTree

/-! ## Signatures -/

theorem ElementaryName.afterTuple?_eq_none (name : ElementaryName) :
    afterTuple? name.chars = none := by
  rw [afterTuple?, if_neg]
  exact fun structured => name.unstructured (List.isPrefixOf_iff_prefix.1 structured)

theorem afterTuple?_tupleWord (rest : List Char) : afterTuple? (tupleWord ++ rest) = some rest := by
  simp [afterTuple?]

theorem intercalate_signs (types : List TypeTree) :
    [','].intercalate (types.map TypeTree.signs) = TypeTree.signsList types := by
  cases types with
  | nil => rfl
  | cons t types =>
    induction types generalizing t with
    | nil => simp [TypeTree.signsList, TypeTree.signsRest]
    | cons u types ih =>
      rw [List.map_cons, List.map_cons, List.intercalate_cons_cons, ← List.map_cons, ih]
      simp [TypeTree.signsList, TypeTree.signsRest]

theorem toList_intercalate_signs (types : List TypeTree) :
    (",".intercalate (types.map fun t => String.ofList t.signs)).toList =
      TypeTree.signsList types := by
  rw [String.toList_intercalate, List.map_map, ← intercalate_signs]
  congr 2
  funext t
  exact String.toList_ofList

mutual

/-- The canonical type of a parameter is the type as it stands in a signature. -/
theorem HasType.canonicalType_eq : ∀ {p : Value} {t : TypeTree}, HasType p t →
    canonicalType p = .ok (String.ofList t.signs)
  | .object ms, .elementary name, .elementary typed => by
    rw [canonicalType, Value.required, typed]
    simp only [ok_bind, Value.asText, String.toList_ofList, name.afterTuple?_eq_none]
    rfl
  | .object ms, .tuple components dimensions, .tuple typed listed each => by
    rw [canonicalType, Value.required, typed]
    simp only [ok_bind, Value.asText, String.toList_ofList, afterTuple?_tupleWord,
      componentTypes_eq, listed, partTypes, each.typesOf_eq]
    refine congrArg Except.ok (String.toList_injective ?_)
    simp only [String.toList_append, toList_intercalate_signs]
    simp [TypeTree.signs]

theorem HasTypes.typesOf_eq :
    ∀ {params : List Value} {types : List TypeTree}, HasTypes params types →
    typesOf params = .ok (types.map fun t => String.ofList t.signs)
  | _, _, .nil => by rw [typesOf]; rfl
  | _, _, .cons first others => by
    rw [typesOf, first.canonicalType_eq, others.typesOf_eq]
    rfl

end

/-- The signature of a name and types of inputs. -/
def signature (name : Word) (inputs : List TypeTree) : List Char :=
  name.chars ++ '(' :: (TypeTree.signsList inputs ++ [')'])

theorem signature_inj {name name' : Word} {inputs inputs' : List TypeTree}
    (h : signature name inputs = signature name' inputs') : name = name' ∧ inputs = inputs' := by
  obtain ⟨rfl, left⟩ := Word.append_inj (endsWord_cons rfl _) (endsWord_cons rfl _) h
  exact ⟨rfl, (TypeTree.signsList_inj (List.cons.inj left).2).1⟩

theorem HasSignature.canonicalSignature_eq {ms : List (String × Value)} {name : Word}
    {inputs : List TypeTree} (h : HasSignature ms name inputs) :
    canonicalSignature (.object ms) = .ok (String.ofList (signature name inputs)) := by
  obtain ⟨params, listed, each⟩ := h.inputs
  simp only [canonicalSignature, Value.fieldD_object, ok_bind, listed, partTypes, each.typesOf_eq,
    Value.required, h.name, Value.display_text]
  refine congrArg Except.ok (String.toList_injective ?_)
  simp only [String.toList_append, toList_intercalate_signs]
  simp [signature]

/-- **Canonical signatures are unambiguous.** Two entries have signatures, and these are equal
exactly if the names and the types of the inputs are. -/
theorem canonicalSignature_eq_iff {ms others : List (String × Value)} {name name' : Word}
    {inputs inputs' : List TypeTree} (h : HasSignature ms name inputs)
    (h' : HasSignature others name' inputs') :
    ∃ s s', canonicalSignature (.object ms) = .ok s ∧ canonicalSignature (.object others) = .ok s' ∧
      (s = s' ↔ name = name' ∧ inputs = inputs') := by
  refine ⟨_, _, h.canonicalSignature_eq, h'.canonicalSignature_eq, ?_⟩
  constructor
  · intro same
    exact signature_inj (String.ofList_injective same)
  · rintro ⟨rfl, rfl⟩
    rfl

/-! ## An empty tuple inside a list of tuples, and after one -/

def nameF : Word := ⟨['f'], by simp [isDelimiter]⟩

def boolType : TypeTree :=
  .elementary ⟨⟨['b', 'o', 'o', 'l'], by simp [isDelimiter]⟩, by simp, by decide⟩

def noDimensions : Word := ⟨[], by simp⟩

def listDimensions : Word := ⟨['[', ']'], by simp [isDelimiter]⟩

/-- A parameter with a type, and the components that it lists. -/
def parameter (type : String) (components : List Value) : Value :=
  .object [("name", .text "x"), ("type", .text type), ("components", .list components)]

/-- The entry of a function with inputs. -/
def entryOf (inputs : List Value) : List (String × Value) :=
  [("type", .text "function"), ("name", .text "f"), ("inputs", .list inputs)]

/-- The entry of `f((bool,())[])`. -/
def tupleInside : List (String × Value) :=
  entryOf [parameter "tuple[]" [parameter "bool" [], parameter "tuple" []]]

/-- The entry of `f((bool)[],())`. -/
def tupleBehind : List (String × Value) :=
  entryOf [parameter "tuple[]" [parameter "bool" []], parameter "tuple" []]

/-- The place of an empty tuple is told by the signature. -/
theorem canonicalSignature_emptyTuple :
    HasSignature tupleInside nameF [.tuple [boolType, .tuple [] noDimensions] listDimensions] ∧
    HasSignature tupleBehind nameF [.tuple [boolType] listDimensions, .tuple [] noDimensions] ∧
    ∃ s s', canonicalSignature (.object tupleInside) = .ok s ∧
      canonicalSignature (.object tupleBehind) = .ok s' ∧
      s ≠ s' := by
  have inside : HasSignature tupleInside nameF [.tuple [boolType,
      .tuple [] noDimensions] listDimensions] :=
    ⟨rfl, _, rfl, .cons
      (.tuple rfl rfl (.cons (.elementary rfl) (.cons (.tuple rfl rfl .nil) .nil))) .nil⟩
  have behind : HasSignature tupleBehind nameF [.tuple [boolType] listDimensions,
      .tuple [] noDimensions] :=
    ⟨rfl, _, rfl, .cons (.tuple rfl rfl (.cons (.elementary rfl) .nil))
      (.cons (.tuple rfl rfl .nil) .nil)⟩
  obtain ⟨s, s', found, found', same_iff⟩ := canonicalSignature_eq_iff inside behind
  refine ⟨inside, behind, s, s', found, found', fun same => ?_⟩
  have lengths := congrArg List.length (same_iff.1 same).2
  exact absurd lengths (by decide)

end SelectorCatalog.Abi
