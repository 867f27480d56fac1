import SelectorCatalog.Proofs.Functions.Entries
import SelectorCatalog.Proofs.Functions.Linearization

/-!
# Which declaration a function is attributed to

Visibility, declaring contract, source and text of a function are those of one member along the
linearization of its contract (`IsSource`): the first member that states its selector, and only if
there is none, the first function of its name and number of parameters, or else the first state
variable of its name. What one lookup finds (`lookup_source`) is what a record tells
(`recordOf_attributed`), and so do all records of an extraction (`functionsBy_attributes`).
-/

set_option autoImplicit false

namespace SelectorCatalog.Extraction

/-! ## Details of a record -/

/-- The details of a record are those of a member. -/
structure TakenFrom (sources : OrderedMap String) (r : FunctionRecord)
    (m : PlacedMember) : Prop where
  visibility : m.node.field "visibility" = .ok (.text r.visibility.label)
  declaringContract : m.contract.required "name" = .ok r.declaringContract
  filename : r.filename = .text m.sourceFile
  sourceCode : ∃ range, m.node.field "src" = .ok range ∧
    sliceSource sources m.sourceFile range = .ok r.sourceCode

/-- The details of a record are those of the contract itself, and it has no text. -/
structure IsUndeclared (primary : CompiledContract) (r : FunctionRecord) : Prop where
  declaringContract : r.declaringContract = .text primary.name
  filename : r.filename = .text primary.sourceFile
  sourceCode : r.sourceCode = ""

/-- The member that a function is attributed to. -/
inductive IsSource (members : List PlacedMember) (selector : String) (name : Value) (arity : Nat) :
    PlacedMember → Prop
  | selector {m : PlacedMember} (first : IsFirst (PlacedMember.States selector) members m) :
      IsSource members selector name arity m
  | function {m : PlacedMember} (unstated : ∀ m ∈ members, ¬m.States selector)
      (first : IsFirst (PlacedMember.Named name (some arity)) members m) :
        IsSource members selector name arity m
  | getter {m : PlacedMember} (unstated : ∀ m ∈ members, ¬m.States selector)
      (noFunction : ∀ m ∈ members, ¬m.Named name (some arity))
      (first : IsFirst (PlacedMember.Named name none) members m) :
        IsSource members selector name arity m

section

variable {members : List PlacedMember} {selector : String} {name : Value}
  {arity : Nat} {m : PlacedMember}

theorem IsSource.mem (h : IsSource members selector name arity m) : m ∈ members := by
  cases h with
  | selector first => exact first.mem
  | function _ first => exact first.mem
  | getter _ _ first => exact first.mem

theorem IsSource.unique {n : PlacedMember} (h : IsSource members selector name arity m)
    (g : IsSource members selector name arity n) : m = n := by
  cases h with
  | selector first =>
    cases g with
    | selector other => exact first.unique other
    | function unstated _ => exact absurd first.holds (unstated m first.mem)
    | getter unstated _ _ => exact absurd first.holds (unstated m first.mem)
  | function unstated first =>
    cases g with
    | selector other => exact absurd other.holds (unstated n other.mem)
    | function _ other => exact first.unique other
    | getter _ noFunction _ => exact absurd first.holds (noFunction m first.mem)
  | getter unstated noFunction first =>
    cases g with
    | selector other => exact absurd other.holds (unstated n other.mem)
    | function _ other => exact absurd other.holds (noFunction n other.mem)
    | getter _ _ other => exact first.unique other

/-- What the member declares that a function is attributed to; nothing if there is no such
member. -/
def SourceDeclares (members : List PlacedMember) (selector : String) (name : Value) (arity : Nat) :
    Option MemberDeclaration → Prop
  | some d => ∃ m, IsSource members selector name arity m ∧ m.Declares d
  | none => ∀ m, ¬IsSource members selector name arity m

/-- **A lookup finds** what the member declares that the function is attributed to. -/
theorem lookup_source {index : SyntaxIndex} (h : index.Indexes members) (selector : String)
    (name : Value) (arity : Nat) :
    Yields (index.lookup selector name arity) (SourceDeclares members selector name arity) := by
  have stated := h.bySelector selector
  unfold SyntaxIndex.lookup
  cases first : SyntaxIndex.first? selector index.bySelector with
  | some d =>
    rw [first] at stated
    exact .ok (stated.imp fun m h => ⟨.selector h.1, h.2⟩)
  | none =>
    rw [first] at stated
    refine .bind .self fun key known => .pure ?_
    have functions := h.bySignature name key arity known
    have getters := h.getters name key known
    cases signed : SyntaxIndex.first? (key, arity) index.bySignature with
    | some d =>
      rw [signed] at functions
      exact functions.imp fun m h => ⟨.function stated h.1, h.2⟩
    | none =>
      rw [signed] at functions
      rw [Option.orElse_none]
      cases got : SyntaxIndex.first? key index.getters with
      | some d =>
        rw [got] at getters
        exact getters.imp fun m h => ⟨.getter stated functions h.1, h.2⟩
      | none =>
        rw [got] at getters
        rintro m (isFirst | ⟨-, isFirst⟩ | ⟨-, -, isFirst⟩)
        · exact stated m isFirst.mem isFirst.holds
        · exact functions m isFirst.mem isFirst.holds
        · exact getters m isFirst.mem isFirst.holds

end

/-! ## Records -/

/-- The details of a record are those of the member that its function is attributed to, if there is
one. -/
structure IsAttributed (sources : OrderedMap String) (primary : CompiledContract)
    (members : List PlacedMember) (arity : Nat) (r : FunctionRecord) : Prop where
  taken : ∀ m, IsSource members r.selector r.functionName arity m → TakenFrom sources r m
  undeclared : (∀ m, ¬IsSource members r.selector r.functionName arity m) → IsUndeclared primary r

theorem recordOf_attributed {x : Context} {members : List PlacedMember}
    (h : x.index.Indexes members) (entry : Value) (signature selector : String) :
    Yields (recordOf x entry signature selector) fun r => ∃ arity, entry.required "name" =
      .ok r.functionName ∧
      Abi.parameterCount entry = .ok arity ∧ IsAttributed x.sources x.primary members arity r := by
  unfold recordOf
  refine .bind .self fun name named => .bind .self fun arity counted =>
    .bind (lookup_source h selector name arity) fun found source => .skip fun mutability => ?_
  cases found with
  | some d =>
    obtain ⟨m, isSource, declares⟩ := source
    refine .bind .self fun text cut => .pure ⟨arity, named, counted,
      fun n other => ?_, fun none => ?_⟩
    · obtain rfl := isSource.unique other
      exact ⟨declares.visibility, declares.contractName, by rw [declares.sourceFile],
        d.range, declares.range, by rw [← declares.sourceFile, cut]⟩
    · exact absurd isSource (none m)
  | none =>
    exact .pure ⟨arity, named, counted, fun m isSource => absurd isSource (source m),
      fun _ => ⟨rfl, rfl, rfl⟩⟩

/-- What an extraction reads: the contract of the name, the entries of its interface, and the
members along its linearization. -/
structure Reads (c : Compilation) (name : Option String) (primary : CompiledContract)
    (entries : List Value) (members : List PlacedMember) : Prop where
  found : findPrimary c name = .ok primary
  listed : primary.abi.parts = .ok entries
  along : linearization c.trees primary.name primary.sourceFile = .ok members

/-- There is a record for every selector of an entry, and every record is attributed by the first
entry that has its selector. -/
structure Attributes (selectorOf : String → String) (sources : OrderedMap String)
    (primary : CompiledContract) (entries : List Value) (members : List PlacedMember)
    (records : List FunctionRecord) : Prop where
  complete : ∀ e ∈ entries, ∀ selector, HasSelector selectorOf selector e →
    ∃ r ∈ records, r.selector = selector
  attributed : ∀ r ∈ records, ∃ e arity, IsFirst (HasSelector selectorOf r.selector) entries e ∧
    e.required "name" = .ok r.functionName ∧ Abi.parameterCount e = .ok arity ∧
      IsAttributed sources primary members arity r

/-- **An extraction** attributes all its records. -/
theorem functionsBy_attributes (selectorOf : String → String) (contractId : String)
    (c : Compilation) (name : Option String) :
    Yields (functionsBy selectorOf contractId c name) fun records => ∃ primary entries members,
      Reads c name primary entries members ∧
        Attributes selectorOf c.sources primary entries members records := by
  intro _ extracted
  obtain ⟨x, entries, records, known, listed, run, rfl⟩ := functionsBy_eq_ok.1 extracted
  obtain ⟨members, along, indexes⟩ := SyntaxIndex.ofContract_indexes _ _ _ _ known.index
  have made := foldlM_addEntry_made x entries records run
  have same : (sortRecords records).Perm records := List.mergeSort_perm _ _
  rw [← known.selectorOf, ← known.sources]
  refine ⟨x.primary, entries, members, ⟨known.primary, listed, along⟩, ?_, fun r mem => ?_⟩
  · rintro e mem selector ⟨s, declares, rfl⟩
    obtain ⟨r, there, selected⟩ := List.mem_map.1 (made.complete e mem s declares)
    exact ⟨r, same.mem_iff.2 there, selected⟩
  · obtain ⟨e, first, record⟩ := made.made r (same.mem_iff.1 mem)
    obtain ⟨arity, named, counted, attributed⟩ := recordOf_attributed indexes _ _ _ r record
    exact ⟨e, arity, first, named, counted, attributed⟩

end SelectorCatalog.Extraction
