import SelectorCatalog.Compiler.Input
import SelectorCatalog.Database.Basic
import SelectorCatalog.Export.Layout
import SelectorCatalog.Files.Tree

/-!
# Exporting a contract

A stored contract is written to a folder of its own in the form of one folder of the bulk dataset,
so that it can be loaded again: the sources, the metadata, and a compiler input that keeps the names
of the sources as they are.
-/

set_option autoImplicit false

namespace SelectorCatalog

/-- The metadata of a contract in the form of the dataset. -/
def Contract.metadata (c : Contract) : Value :=
  .object [("ContractName", .ofText? c.name),
    ("CompilerVersion", .ofText? c.compilerVersion),
    ("OptimizationUsed", .int (if c.settings.optimizerEnabled then 1 else 0)),
    ("Runs", .int c.settings.optimizerRuns),
    ("EVMVersion", (Value.ofText? c.settings.evmVersion).orElse (.text "Default")),
    ("ContractAddress", (Value.ofText? c.address).orElse (.text "")),
    ("ConstructorArguments", c.constructorArgs.orElse (.text "")),
    ("SourceFormat", .text c.sourceFormat.label),
    ("ContractId", .text c.id)]

namespace Export

/-- No contract has the id. -/
structure UnknownContract where
  id : String
  deriving DecidableEq

/-- The words for an unknown contract. -/
def UnknownContract.message (u : UnknownContract) : String := "No contract with id " ++ u.id

/-- The bytes of a text. -/
def bytes (s : String) : List UInt8 := Text.utf8 s.toList

/-- Writes the sources to a folder. -/
def writeSources (folder : Path) : List (String × String) → TreeStep Unit
  | [] => return
  | (name, content) :: rest => do
    Tree.place (folder.join (.ofText name)) (bytes content)
    writeSources folder rest

/-- Writes a contract to a folder. -/
def writeFolder (folder : Path) (c : Contract) : TreeStep Unit := do
  Tree.makeDirectories folder
  writeSources folder (plan c.sources)
  Tree.write (folder.join (.ofText "contract.json")) (bytes (Json.writeLines c.exportedInput))
  Tree.write (folder.join (.ofText "metadata.json")) (bytes (Json.writeLines c.metadata))

/-- Writes a stored contract to a folder named for its id; the folder is the answer. -/
def exportContract (db : Database) (id output : String) (t : Tree) :
    Except (Stop UnknownContract) Path × Tree :=
  match db.contract? id with
  | .error f => (.error (.fault f), t)
  | .ok none => (.error (.failure ⟨id⟩), t)
  | .ok (some c) =>
    let folder := (Path.ofText output).join (.ofText c.id)
    match writeFolder folder c t with
    | (.ok (), t) => (.ok folder, t)
    | (.error f, t) => (.error (.fault f), t)

end Export

end SelectorCatalog
