import SelectorCatalog.Contract.Settings
import SelectorCatalog.Digest.Md5
import SelectorCatalog.Text.Blank
import SelectorCatalog.Text.Utf8

/-!
# Contracts

A contract is a set of sources with the compiler release and the settings that they compile with,
and the name of the contract among those declared in them that counts. Its id is a digest of what it
is: the contents without blanks and in any order, the name, the release and the settings. Paths,
address and constructor arguments do not enter.
-/

set_option autoImplicit false

namespace SelectorCatalog

/-- How the sources of a contract were laid out in the corpus. -/
inductive SourceFormat where
  | singleFile
  | manyFiles
  | standardJson
  deriving DecidableEq, Inhabited

namespace SourceFormat

/-- The stored text of a layout. -/
def label : SourceFormat → String
  | singleFile => "single_sol"
  | manyFiles => "multi_sol"
  | standardJson => "standard_json"

/-- All layouts. -/
def all : List SourceFormat := [singleFile, manyFiles, standardJson]

/-- The layout of a stored text. -/
def ofLabel? (s : String) : Option SourceFormat := all.find? fun f => f.label == s

theorem ofLabel?_label (f : SourceFormat) : ofLabel? f.label = some f := by
  cases f <;> decide

end SourceFormat

/-- The digest of a content with its blanks removed. -/
def contentDigest (digest : List UInt8 → String) (content : String) : String :=
  digest (Text.utf8 (Text.dropBlanks content).toList)

/-- The text that the id of a contract is the digest of. -/
def identityText (digest : List UInt8 → String) (contents : List String) (name version : String)
    (settings : CompilerSettings) : String :=
  let digests := (contents.map (contentDigest digest)).mergeSort fun a b => decide (a ≤ b)
  "|".intercalate [String.join digests, name, version, settings.toText]

/-- The id of a contract. -/
def contentId (digest : List UInt8 → String) (contents : List String) (name version : String)
    (settings : CompilerSettings) : String :=
  digest (Text.utf8 (identityText digest contents name version settings).toList)

/-- A contract ready to compile. -/
structure Contract where
  /-- A row of an older release may lack the name. -/
  name : Option String
  /-- A row of an older release may lack the compiler version. -/
  compilerVersion : Option String
  /-- Paths and contents in order. -/
  sources : List (String × String)
  settings : CompilerSettings := {}
  sourceFormat : SourceFormat := .singleFile
  address : Option String := none
  /-- The constructor arguments as the metadata gives them; null if there are none. -/
  constructorArgs : Value := .null
  id : String := ""
  deriving Inhabited

namespace Contract

/-- The id that a contract's content gives; it needs a name and a version, and settings that can be
written. -/
def identify (c : Contract) : Except Fault String := do
  -- The settings are written before the name and the version are looked at.
  let _ ← c.settings.dump
  match c.name, c.compilerVersion with
  | some name, some version =>
    return contentId Md5.hexDigest (c.sources.map Prod.snd) name version c.settings
  | _, _ => throw .wrongType

/-- The contract with an id: an empty one is replaced by the id of the content. -/
def withId (c : Contract) : Except Fault Contract :=
  if c.id.isEmpty then c.identify.map fun id => { c with id } else .ok c

/-- The contents by path; of two sources of one path the last counts, at the place of the first. -/
def sourceMap (c : Contract) : OrderedMap String := OrderedMap.ofList c.sources

/-- The sources in the compiler's document format. -/
def standardSources (c : Contract) : Value :=
  .object (c.sourceMap.entries.map fun e => (e.1, .object [("content", .text e.2)]))

end Contract

end SelectorCatalog
