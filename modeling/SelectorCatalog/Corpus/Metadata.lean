import SelectorCatalog.Contract.Settings
import SelectorCatalog.Corpus.Malformed
import SelectorCatalog.Solidity.Declaration
import SelectorCatalog.Text.LowerCase

/-!
# Metadata fields

Fields of a record's metadata come as text, number, truth value or not at all. Each rule here turns
one such value into a setting.
-/

set_option autoImplicit false

namespace SelectorCatalog.Metadata

/-- A flag: a truth value, one of the words `true`, `1` and `yes`, or any other value that counts as
given. -/
def flag : Value → Bool
  | .bool b => b
  | .text s =>
    let word := Text.lower (Text.trim s)
    word == "true" || word == "1" || word == "yes"
  | v => v.isGiven

/-- The number of optimizer runs: 200 if none is given. -/
def runs (v : Value) : Except Fault Int :=
  match v with
  | .null => .ok 200
  | _ =>
    let s := Text.trim v.display
    if s.isEmpty then .ok 200 else integerOf s

/-- The machine version in lower case; the word `default` and an empty text are none. -/
def machine (v : Value) : Option String :=
  if v.isGiven then
    let s := Text.lower (Text.trim v.display)
    if s.isEmpty || s == "default" then none else some s
  else none

/-- The compiler version, which a record must have. -/
def version (v : Value) : Except RecordFlaw String :=
  let s := if v.isGiven then Text.trim v.display else ""
  if s.isEmpty then .error .missingVersion else .ok s

/-- An address is written with `0x` in front. -/
def withHexMark (address : String) : String :=
  if "0x".toList.isPrefixOf address.toList then address else "0x" ++ address

/-- The library name and address of one item, parted by its first colon. -/
def libraryItem? (item : List Char) : Option (String × String) :=
  match item.dropWhile (· != ':') with
  | _ :: address =>
    some (Text.trim (String.ofList (item.takeWhile (· != ':'))),
      withHexMark (Text.trim (String.ofList address)))
  | [] => none

/-- The library names and addresses of the items between semicolons; an item without a colon is
passed over. -/
def libraryItems (s : String) : List (String × String) :=
  (s.toList.splitOn ';').filterMap libraryItem?

/-- The library addresses of a text of items. -/
def librariesOf (s : String) : OrderedMap String := OrderedMap.ofList (libraryItems s)

/-- The library addresses of a metadata field. -/
def libraries (v : Value) : OrderedMap String :=
  if v.isGiven then librariesOf v.display else .empty

/-- Whether a text is `0x` and forty hexadecimal digits, a line feed after them allowed. -/
def isAddress (s : List Char) : Bool :=
  match s with
  | '0' :: 'x' :: digits =>
    let digits := if digits.getLast? = some '\n' then digits.dropLast else digits
    digits.length == 40 && digits.all fun c => (Text.hexValue? c).isSome
  | _ => false

/-- The address that a file is named for. -/
def addressOfOrigin? (origin : String) : Option String :=
  let file := (origin.toList.reverse.takeWhile fun c => c != '/' && c != '\\').reverse
  let stem := file.takeWhile (· != '.')
  if isAddress stem then some (String.ofList stem) else none

/-- The name that the metadata declares, `none` if it declares none. -/
def declaredName? (v : Value) : Except Fault (Option String) :=
  if v.isGiven then do
    let s ← v.asText
    let name := Text.trim s
    return if name.isEmpty then none else some (Solidity.unqualified name)
  else .ok none

/-- The texts of source contents, in order. -/
def contentTexts (sources : List (String × Value)) : Except Fault (List (String × String)) :=
  sources.mapM fun e => match e.2 with
    | .text s => .ok (e.1, s)
    | _ => .error .wrongType

/-- The name of the contract that counts: the declared one, else the one that the sources give. -/
def primaryName (contents : List String) (declared : Option String) : Except RecordFlaw String :=
  match declared with
  | some name => .ok name
  | none => match Solidity.primaryOf? (Solidity.declaredIn contents) with
    | some name => .ok name
    | none => .error .noDeclaration

/-- The text of an address in lower case; an address that does not count as given is none. -/
def address? (v : Value) : Option String :=
  if v.isGiven then some (Text.lower v.display) else none

end SelectorCatalog.Metadata
