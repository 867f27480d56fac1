import SelectorCatalog.Proofs.Functions.StatedSelectors

/-!
# Overrides without selectors

Syntax trees of older releases state no selectors, and functions are found by name and number of
parameters. Of functions that override one another the most derived one counts, and so it is with
state variables; but a function of a base counts before the state variable that implements it
(`functionsBy_without_selectors`, `functionsBy_hides_getter`).
-/

set_option autoImplicit false

namespace SelectorCatalog.Extraction

open Abi (selectorBy)

variable {c : Compilation} {name : Option String} {records : List FunctionRecord}

/-! ## The first member of a name -/

/-- **Where no member states a selector**, take an entry of a name and a number of parameters such
that all functions of the name have as many. Its record has the details of the first member of the
name if this is a function or if no member of the name is; but a function counts before every state
variable, whatever contracts declare them. -/
theorem functionsBy_without_selectors (selectorOf : String → String) (contractId : String)
    (extracted : functionsBy selectorOf contractId c name = .ok records) :
    ∃ primary entries members, Reads c name primary entries members ∧
      ((∀ m ∈ members, ∀ s, ¬m.States s) →
        ∀ e selector n arity, IsFirst (HasSelector selectorOf selector) entries e →
          e.required "name" = .ok n →
          Abi.parameterCount e = .ok arity →
            (∀ m ∈ members, ∀ a, m.Named n a → a = some arity ∨ a = none) →
          (∃ r ∈ records, r.selector = selector) ∧ ∀ r ∈ records, r.selector = selector →
            (∀ m, IsFirst (fun m => ∃ a, m.Named n a) members m →
              (m.Named n (some arity) ∨ ∀ f ∈ members, ¬f.Named n (some arity)) →
                TakenFrom c.sources r m) ∧
            ∀ f, IsFirst (PlacedMember.Named n (some arity)) members f →
              TakenFrom c.sources r f) := by
  obtain ⟨primary, entries, members, reads, all⟩ := functionsBy_attributes _ _ _ _ _ extracted
  refine ⟨primary, entries, members, reads,
    fun silent e selector n arity first named counted same =>
    ⟨all.complete e first.mem selector first.holds, ?_⟩⟩
  rintro r mem rfl
  obtain ⟨e', arity', first', named', counted', attributed⟩ := all.attributed r mem
  cases first.unique first'
  cases named.symm.trans named'
  cases counted.symm.trans counted'
  have unstated : ∀ m ∈ members, ¬m.States r.selector := fun m there => silent m there _
  have function (f : PlacedMember)
      (isFirst : IsFirst (PlacedMember.Named r.functionName (some arity)) members f) :
      TakenFrom c.sources r f := attributed.taken f (.function unstated isFirst)
  refine ⟨fun m isFirst sort => ?_, function⟩
  rcases sort with isFunction | noFunction
  · exact function m (isFirst.narrow isFunction fun b h => ⟨_, h⟩)
  · obtain ⟨a, isNamed⟩ := isFirst.holds
    rcases same m isFirst.mem a isNamed with rfl | rfl
    · exact absurd isNamed (noFunction m isFirst.mem)
    · exact attributed.taken m
        (.getter unstated noFunction (isFirst.narrow isNamed fun b h => ⟨_, h⟩))

/-! ## A state variable that implements a function -/

/-- An interface declares a function. -/
def readerNode :
    Value := contractNode 1 "Reader" [1] [functionNode "number" .external none 0 "18:50"]

/-- The declaration of the state variable that implements it. -/
def numberNode : Value :=
  .object [("nodeType", .text "VariableDeclaration"), ("name", .text "number"),
    ("visibility", .text "public"), ("stateVariable", .bool true), ("src", .text "98:21")]

/-- A contract implements the function by a state variable. -/
def counterNode : Value := contractNode 2 "Counter" [2, 1] [numberNode]

/-- The state variable. -/
def counterNumber : PlacedMember := ⟨numberNode, counterNode, "counter.sol"⟩

/-- The function of the interface. -/
def readerNumber :
    PlacedMember := ⟨functionNode "number" .external none 0 "18:50", readerNode, "counter.sol"⟩

/-- A compilation of the contract by a release that states no selectors. -/
def counter : Compilation where
  contractId := "0b"
  compilerVersion := some "0.5.0"
  contracts := [⟨"Counter", "counter.sol", .list [functionEntry "number" []], .object []⟩]
  trees := .ofList [("counter.sol", unitTree [readerNode, counterNode])]
  sources := .ofList [("counter.sol",
    "interface Reader \x7bfunction number() external view returns (uint256);\x7d\n" ++
    "contract Counter is Reader \x7buint256 public number;\x7d")]

theorem linearization_counter :
    linearization counter.trees "Counter" "counter.sol" = .ok [counterNumber, readerNumber] := rfl

theorem declares_counterNumber : counterNumber.Declares
    ⟨.text "number", .anywhere, .text "Counter", "counter.sol", .text "98:21", none⟩ :=
  ⟨rfl, .inr ⟨rfl, rfl, _, rfl, rfl⟩, rfl, rfl, rfl, rfl⟩

theorem declares_readerNumber : readerNumber.Declares
    ⟨.text "number", .external, .text "Reader", "counter.sol", .text "18:50", some 0⟩ :=
  ⟨rfl, .inl ⟨0, rfl, rfl, rfl, rfl⟩, rfl, rfl, rfl, rfl⟩

theorem selectorBy_number : selectorBy Keccak.digest "number()" = "0x8381f58a" := by decide +kernel

theorem succeeds_counter :
    Succeeds (functionsBy (selectorBy Keccak.digest) "0b" counter (some "Counter")) :=
  succeeds_of_isOk (by decide +kernel)

theorem silent_counter : ∀ m ∈ [counterNumber, readerNumber], ∀ s, ¬m.States s := by
  simp only [List.forall_mem_cons, List.not_mem_nil, false_implies, implies_true, and_true]
  constructor
  · rintro s ⟨-, t, ⟨⟩, -⟩
  · rintro s ⟨-, t, ⟨⟩, -⟩

/-- The members of the name are the state variable and a function without parameters. -/
theorem named_counter : ∀ m ∈ [counterNumber, readerNumber], ∀ a,
    m.Named (.text "number") a → a = some 0 ∨ a = none := by
  simp only [List.forall_mem_cons, List.not_mem_nil, false_implies, implies_true, and_true]
  refine ⟨fun a named => .inr ?_, fun a named => .inl ?_⟩
  · exact ((declares_counterNumber.named_iff rfl rfl).1 named).2.symm
  · exact ((declares_readerNumber.named_iff rfl rfl).1 named).2.symm

theorem isFirst_readerNumber :
    IsFirst (PlacedMember.Named (.text "number") (some 0)) [counterNumber,
      readerNumber] readerNumber := by
  refine ⟨[counterNumber], [], rfl, ⟨_, declares_readerNumber, ⟨_, rfl, rfl⟩, rfl⟩, ?_⟩
  rw [List.forall_mem_singleton]
  intro named
  cases ((declares_counterNumber.named_iff rfl rfl).1 named).2

/-- The function of the interface counts. -/
theorem functionsBy_without_selectors_counter :
    ∃ records, functionsBy (selectorBy Keccak.digest) "0b" counter (some "Counter") = .ok records ∧
      (∃ r ∈ records, r.selector = "0x8381f58a") ∧
      ∀ r ∈ records, r.selector = "0x8381f58a" → TakenFrom counter.sources r readerNumber := by
  obtain ⟨records, extracted⟩ := succeeds_counter
  obtain ⟨primary, entries, members, ⟨found, listed, along⟩, all⟩ :=
    functionsBy_without_selectors _ _ extracted
  cases found
  cases listed
  cases linearization_counter.symm.trans along
  obtain ⟨there, details⟩ :=
    all silent_counter (functionEntry "number" []) "0x8381f58a" (.text "number") 0
    ⟨[], [], rfl, ⟨_, ⟨rfl, rfl⟩, selectorBy_number⟩, by simp⟩ rfl rfl named_counter
  exact ⟨records, extracted, there,
    fun r mem selected => (details r mem selected).2 _ isFirst_readerNumber⟩

/-- **A function that hides the state variable of the derived contract**: the first member of the
name is the public state variable, and yet the record tells the function that it implements. -/
theorem functionsBy_hides_getter :
    IsFirst (fun m => ∃ a, m.Named (.text "number") a) [counterNumber, readerNumber] counterNumber ∧
      ∃ records, functionsBy (selectorBy Keccak.digest) "0b" counter (some "Counter") =
        .ok records ∧
        ∃ r ∈ records, r.selector = "0x8381f58a" ∧ r.visibility = .external ∧
          r.declaringContract = .text "Reader" ∧ ¬TakenFrom counter.sources r counterNumber := by
  refine ⟨⟨[], _, rfl, ⟨_, _, declares_counterNumber, ⟨_, rfl, rfl⟩, rfl⟩, by simp⟩, ?_⟩
  obtain ⟨records, extracted⟩ := succeeds_counter
  obtain ⟨primary, entries, members, ⟨found, listed, along⟩, all⟩ :=
    functionsBy_attributes _ _ _ _ _ extracted
  cases found
  cases listed
  cases linearization_counter.symm.trans along
  obtain ⟨r, mem, selected⟩ := all.complete (functionEntry "number" []) (by simp) "0x8381f58a"
    ⟨_, ⟨rfl, rfl⟩, selectorBy_number⟩
  obtain ⟨e, arity, first, named, counted, attributed⟩ := all.attributed r mem
  obtain rfl := List.mem_singleton.1 first.mem
  cases counted
  have details : TakenFrom counter.sources r readerNumber := by
    refine attributed.taken _ (.function (fun m there => silent_counter m there _) ?_)
    rw [← Except.ok.inj named]
    exact isFirst_readerNumber
  have declared : r.declaringContract = .text "Reader" :=
    (Except.ok.inj details.declaringContract).symm
  have visible : Value.text "external" = .text r.visibility.label :=
    Except.ok.inj details.visibility
  refine ⟨records, extracted, r, mem, selected, ?_, declared, fun other => ?_⟩
  · cases sort : r.visibility with
    | external => rfl
    | anywhere => simp [sort, Visibility.label] at visible
  · have another : Value.text "Counter" = r.declaringContract :=
      Except.ok.inj other.declaringContract
    simp [declared] at another

end SelectorCatalog.Extraction
