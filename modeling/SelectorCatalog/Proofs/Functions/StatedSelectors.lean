import SelectorCatalog.Proofs.Functions.Attribution

/-!
# Members that state selectors

Syntax trees of newer releases state the selector of every member that can be called from outside.
Of the members that state the selector of a function the most derived one counts
(`functionsBy_mostDerived`). If no member states it, the function is found by name and number of
parameters, and then also in a member that states another selector (`functionsBy_misattributes_iff`,
`functionsBy_crosses_overloads`).
-/

set_option autoImplicit false

namespace SelectorCatalog.Extraction

open Abi (selectorBy)

variable {c : Compilation} {name : Option String} {records : List FunctionRecord}

/-! ## The most derived declaration -/

/-- **A selector that members state** is attributed to the first of them: the most derived contract
counts, and in one contract the member that is declared first, whatever other members of the name
there are. -/
theorem functionsBy_mostDerived (selectorOf : String → String) (contractId : String)
    (extracted : functionsBy selectorOf contractId c name = .ok records) :
    ∃ primary entries members, Reads c name primary entries members ∧
      ∀ e ∈ entries, ∀ selector, HasSelector selectorOf selector e →
        (∃ m ∈ members, m.States selector) →
        (∃ r ∈ records, r.selector = selector) ∧
          ∃ m, IsFirst (PlacedMember.States selector) members m ∧
            ∀ r ∈ records, r.selector = selector → TakenFrom c.sources r m := by
  obtain ⟨primary, entries, members, reads, all⟩ := functionsBy_attributes _ _ _ _ _ extracted
  refine ⟨primary, entries, members, reads,
    fun e mem selector has stated => ⟨all.complete e mem _ has, ?_⟩⟩
  obtain ⟨m, first⟩ := exists_isFirst stated
  refine ⟨m, first, ?_⟩
  rintro r there rfl
  obtain ⟨-, arity, -, -, -, attributed⟩ := all.attributed r there
  exact attributed.taken m (.selector first)

/-! ## A contract with overloads -/

/-- The syntax tree of a source with some contracts. -/
def unitTree (contracts : List Value) : Value :=
  .object [("nodeType", .text "SourceUnit"), ("nodes", .list contracts)]

/-- The definition of a contract in a syntax tree. -/
def contractNode (id : Int) (name : String) (bases : List Int) (members : List Value) : Value :=
  .object [("nodeType", .text "ContractDefinition"), ("id", .int id), ("name", .text name),
    ("linearizedBaseContracts", .list (bases.map .int)), ("nodes", .list members)]

/-- The declaration of a function with some parameters. -/
def functionNode (name : String) (visibility : Visibility) (selector : Option String)
    (parameters : Nat) (range : String) : Value :=
  .object [("nodeType", .text "FunctionDefinition"), ("name", .text name),
    ("visibility", .text visibility.label),
    ("functionSelector", .ofText? selector), ("src", .text range),
    ("parameters", .object [("parameters", .list (.replicate parameters .null))])]

/-- A base declares a function. -/
def bankNode : Value :=
  contractNode 1 "Bank" [1] [functionNode "pay" .external (some "C290D691") 1 "15:41"]

/-- A contract overrides the function of its base. Of its other base, which has an overload, there
is no tree. -/
def vaultNode : Value :=
  contractNode 3 "Vault" [3, 2, 1] [functionNode "pay" .external (some "c290d691") 1 "88:42"]

/-- The function of the base. -/
def bankPay : PlacedMember :=
  ⟨functionNode "pay" .external (some "C290D691") 1 "15:41", bankNode, "vault.sol"⟩

/-- The function that overrides it. -/
def vaultPay : PlacedMember :=
  ⟨functionNode "pay" .external (some "c290d691") 1 "88:42", vaultNode, "vault.sol"⟩

/-- A compilation of the contract, whose interface has both overloads. -/
def vault : Compilation where
  contractId := "0a"
  compilerVersion := some "0.8.20"
  contracts := [⟨"Vault", "vault.sol", .list [functionEntry "pay" ["uint256"],
    functionEntry "pay" ["address"]], .object []⟩]
  trees := .ofList [("vault.sol", unitTree [bankNode, vaultNode])]
  sources := .ofList [("vault.sol",
    "contract Bank \x7bfunction pay(uint256) external virtual \x7b\x7d\x7d\n" ++
    "contract Vault is Till, Bank \x7bfunction pay(uint256) external override \x7b\x7d\x7d")]

theorem linearization_vault :
    linearization vault.trees "Vault" "vault.sol" = .ok [vaultPay, bankPay] := rfl

theorem declares_vaultPay : vaultPay.Declares
    ⟨.text "pay", .external, .text "Vault", "vault.sol", .text "88:42", some 1⟩ :=
  ⟨rfl, .inl ⟨1, rfl, rfl, rfl, rfl⟩, rfl, rfl, rfl, rfl⟩

theorem states_vaultPay : vaultPay.States "0xc290d691" :=
  ⟨⟨_, declares_vaultPay⟩, "c290d691", rfl, rfl, by decide +kernel⟩

theorem selectorBy_payAmount :
    selectorBy Keccak.digest "pay(uint256)" = "0xc290d691" := by decide +kernel

theorem selectorBy_payAddress :
    selectorBy Keccak.digest "pay(address)" = "0x0c11dedd" := by decide +kernel

theorem succeeds_vault :
    Succeeds (functionsBy (selectorBy Keccak.digest) "0a" vault (some "Vault")) :=
  succeeds_of_isOk (by decide +kernel)

/-- The function that overrides counts, and not the one that it overrides. -/
theorem functionsBy_mostDerived_vault :
    ∃ records, functionsBy (selectorBy Keccak.digest) "0a" vault (some "Vault") = .ok records ∧
      (∃ r ∈ records, r.selector = "0xc290d691") ∧
      ∀ r ∈ records, r.selector = "0xc290d691" → r.declaringContract = .text "Vault" := by
  obtain ⟨records, extracted⟩ := succeeds_vault
  obtain ⟨primary, entries, members, ⟨found, listed, along⟩, all⟩ :=
    functionsBy_mostDerived _ _ extracted
  cases found
  cases listed
  cases linearization_vault.symm.trans along
  obtain ⟨there, m, first, taken⟩ := all (functionEntry "pay" ["uint256"]) (by simp) "0xc290d691"
    ⟨_, ⟨rfl, rfl⟩, selectorBy_payAmount⟩ ⟨vaultPay, by simp, states_vaultPay⟩
  obtain rfl := first.unique ⟨[], _, rfl, states_vaultPay, by simp⟩
  exact ⟨records, extracted, there,
    fun r mem selected => (Except.ok.inj (taken r mem selected).declaringContract).symm⟩

/-! ## Members that state another selector -/

/-- **A member that states another selector** gives its details to a function exactly if it is found
by name and number of parameters and no member states the selector of the function. -/
theorem functionsBy_misattributes_iff (selectorOf : String → String) (contractId : String)
    (extracted : functionsBy selectorOf contractId c name = .ok records) :
    ∃ primary entries members, Reads c name primary entries members ∧
      ∀ r ∈ records, ∃ e arity, IsFirst (HasSelector selectorOf r.selector) entries e ∧
        e.required "name" = .ok r.functionName ∧ Abi.parameterCount e = .ok arity ∧
        ((∀ m, ¬IsSource members r.selector r.functionName arity m) → IsUndeclared primary r) ∧
        ∀ m, IsSource members r.selector r.functionName arity m → TakenFrom c.sources r m ∧
          ((∃ s, m.States s ∧ s ≠ r.selector) ↔
            (∃ s, m.States s) ∧ ∀ n ∈ members, ¬n.States r.selector) := by
  obtain ⟨primary, entries, members, reads, all⟩ := functionsBy_attributes _ _ _ _ _ extracted
  refine ⟨primary, entries, members, reads, fun r mem => ?_⟩
  obtain ⟨e, arity, first, named, counted, attributed⟩ := all.attributed r mem
  refine ⟨e, arity, first, named, counted, attributed.undeclared,
    fun m source => ⟨attributed.taken m source, ?_⟩⟩
  constructor
  · rintro ⟨s, states, differs⟩
    refine ⟨⟨s, states⟩, ?_⟩
    cases source with
    | selector isFirst => exact absurd (states.unique isFirst.holds) differs
    | function unstated => exact unstated
    | getter unstated => exact unstated
  · rintro ⟨⟨s, states⟩, unstated⟩
    refine ⟨s, states, ?_⟩
    rintro rfl
    exact unstated m source.mem states

theorem unstated_payAddress : ∀ m ∈ [vaultPay, bankPay], ¬m.States "0x0c11dedd" := by
  simp only [List.forall_mem_cons, List.not_mem_nil, false_implies, implies_true, and_true]
  constructor
  · rintro ⟨-, s, text, -, same⟩
    cases text
    exact absurd same (by decide +kernel)
  · rintro ⟨-, s, text, -, same⟩
    cases text
    exact absurd same (by decide +kernel)

/-- The overload of the other base is attributed to the function of the contract. -/
theorem isSource_payAddress : IsSource [vaultPay, bankPay] "0x0c11dedd" (.text "pay") 1 vaultPay :=
  .function unstated_payAddress ⟨[], _, rfl, ⟨_, declares_vaultPay, ⟨_, rfl, rfl⟩, rfl⟩, by simp⟩

/-- Both entries have the same name and the same number of parameters. -/
theorem asked_vault {e : Value}
    (mem : e ∈ [functionEntry "pay" ["uint256"], functionEntry "pay" ["address"]]) :
    e.required "name" = .ok (.text "pay") ∧ Abi.parameterCount e = .ok 1 := by
  simp only [List.mem_cons, List.not_mem_nil, or_false] at mem
  rcases mem with rfl | rfl <;> exact ⟨rfl, rfl⟩

theorem functionsBy_misattributes_vault :
    ∃ records, functionsBy (selectorBy Keccak.digest) "0a" vault (some "Vault") = .ok records ∧
      ∀ r ∈ records, r.selector = "0x0c11dedd" → ∃ m s, TakenFrom vault.sources r m ∧ m.States s ∧
        s ≠ r.selector := by
  obtain ⟨records, extracted⟩ := succeeds_vault
  obtain ⟨primary, entries, members, ⟨found, listed, along⟩, all⟩ :=
    functionsBy_misattributes_iff _ _ extracted
  cases found
  cases listed
  cases linearization_vault.symm.trans along
  refine ⟨records, extracted, fun r mem selected => ?_⟩
  obtain ⟨e, arity, first, named, counted, -, taken⟩ := all r mem
  obtain ⟨name, count⟩ := asked_vault first.mem
  cases counted.symm.trans count
  obtain ⟨details, other⟩ := taken vaultPay (by
    rw [selected, Except.ok.inj (named.symm.trans name)]
    exact isSource_payAddress)
  obtain ⟨s, states, differs⟩ := other.2 ⟨⟨_, states_vaultPay⟩, selected ▸ unstated_payAddress⟩
  exact ⟨_, s, details, states, differs⟩

/-- **A function with the details of another one**: the overload that takes an address bears the
text of the function that takes an amount, although that function states its selector. -/
theorem functionsBy_crosses_overloads :
    ∃ records, functionsBy (selectorBy Keccak.digest) "0a" vault (some "Vault") = .ok records ∧
      ∃ r ∈ records, r.selector = "0x0c11dedd" ∧ TakenFrom vault.sources r vaultPay ∧
        vaultPay.States "0xc290d691" := by
  obtain ⟨records, extracted⟩ := succeeds_vault
  obtain ⟨primary, entries, members, ⟨found, listed, along⟩, all⟩ :=
    functionsBy_attributes _ _ _ _ _ extracted
  cases found
  cases listed
  cases linearization_vault.symm.trans along
  obtain ⟨r, mem, selected⟩ := all.complete (functionEntry "pay" ["address"]) (by simp) "0x0c11dedd"
    ⟨_, ⟨rfl, rfl⟩, selectorBy_payAddress⟩
  obtain ⟨e, arity, first, named, counted, attributed⟩ := all.attributed r mem
  obtain ⟨name, count⟩ := asked_vault first.mem
  cases counted.symm.trans count
  refine ⟨records, extracted, r, mem, selected, attributed.taken vaultPay ?_, states_vaultPay⟩
  rw [selected, Except.ok.inj (named.symm.trans name)]
  exact isSource_payAddress

end SelectorCatalog.Extraction
