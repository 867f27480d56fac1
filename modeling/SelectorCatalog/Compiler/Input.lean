import SelectorCatalog.Contract.Basic

/-!
# Compiler input

The document that the compiler reads: sources by path, the settings, and which results are wanted,
which are the ABI and selectors of every contract and the syntax tree of every source.
-/

set_option autoImplicit false

namespace SelectorCatalog

/-- The results that the compiler is asked for. -/
def wantedResults : Value :=
  .object [("*", .object [
    ("*", .list [.text "abi", .text "evm.methodIdentifiers"]),
    ("", .list [.text "ast"])])]

namespace Contract

/-- A compiler input with the given members among the settings. -/
def inputDocument (c : Contract) (settings : List (String × Value)) : Value :=
  .object [("language", .text "Solidity"), ("sources", c.standardSources),
    ("settings", .object settings)]

/-- The document that the compiler reads. -/
def compilerInput (c : Contract) : Value :=
  c.inputDocument (c.settings.standardMembers ++ [("outputSelection", wantedResults)])

/-- The compiler input that is exported: it asks for no results. -/
def exportedInput (c : Contract) : Value := c.inputDocument c.settings.standardMembers

end Contract

end SelectorCatalog
