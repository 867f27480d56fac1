import SelectorCatalog.Files.Path

/-!
# Layout of an exported folder

Source names may be any text, and the names of exported files must stay below the folder. Names are
cleaned, names without a suffix get one, and names that are taken get a number.
-/

set_option autoImplicit false

namespace SelectorCatalog.Export

/-- A text without a drive letter in front. -/
def dropDrive : List Char → List Char
  | letter :: ':' :: rest => if letter.isAlpha then rest else letter :: ':' :: rest
  | s => s

/-- Whether a component of a name is kept. -/
def isKept (part : String) : Bool := part != "/" && part != ".." && part != "."

/-- The name of the file for a source without a usable name. -/
def namelessSource : String := "source.sol"

/-- The cleaned name of a source: backslashes are slashes, and drive letter, root and steps upwards
are gone. -/
def sanitize (name : String) : String :=
  let slashed := name.toList.map fun c => if c == '\\' then '/' else c
  let path := Path.ofText (String.ofList (dropDrive slashed))
  let kept := "/".intercalate (path.components.filter isKept)
  if kept.isEmpty then namelessSource else kept

/-- The names of the files that every exported folder has. -/
def reserved : List String := ["metadata.json", "contract.json"]

/-- A name with a suffix: one that has none gets one, unless that would be another source's name. -/
def completed (taken : List String) (name : String) : String :=
  let full := name ++ ".sol"
  if (Path.ofText name).suffix.isEmpty && !taken.contains full then full else name

/-- A name with a number before its suffix. -/
def numbered (name : String) (n : Nat) : String :=
  let path := Path.ofText name
  path.withoutSuffix.render ++ "_" ++ toString n ++ path.suffix

/-- The name itself, or its first numbered form that is not used. -/
def unused (used : List String) (name : String) : String :=
  if used.contains name then
    let numbers := (List.range (used.length + 1)).map (· + 1)
    match numbers.find? fun n => !used.contains (numbered name n) with
    | some n => numbered name n
    | none => name
  else name

/-- The names of files for cleaned names in order. -/
def planNames (taken : List String) : List String → List String → List String
  | _, [] => []
  | used, name :: rest =>
    let target := unused used (completed taken name)
    target :: planNames taken (used ++ [target]) rest

/-- The names of files and contents for sources in order. -/
def plan (sources : List (String × String)) : List (String × String) :=
  let cleaned := sources.map fun s => sanitize s.1
  (planNames (cleaned ++ reserved) reserved cleaned).zip (sources.map Prod.snd)

end SelectorCatalog.Export
