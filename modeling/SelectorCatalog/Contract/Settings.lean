import SelectorCatalog.Json.Shape
import SelectorCatalog.Json.Writer

/-!
# Compiler settings

The settings that a contract was compiled with. They are stored as a document with sorted member
names, so that equal settings have equal texts, and are handed to the compiler in its own document
format.

A stored text may come from an older release. `StoredSettings` is what such a text holds, member by
member and of any type; `StoredSettings.settings` gives the settings if every member has its type.
-/

set_option autoImplicit false

namespace SelectorCatalog

/-- Settings that change what the compiler produces. -/
structure CompilerSettings where
  optimizerEnabled : Bool := false
  optimizerRuns : Int := 200
  evmVersion : Option String := none
  remappings : List String := []
  /-- Addresses by source unit and library name. -/
  libraries : OrderedMap (OrderedMap String) := .empty
  viaIr : Bool := false
  deriving DecidableEq, Inhabited

/-- Settings as a stored text holds them. -/
structure StoredSettings where
  optimizerEnabled : Value := .bool false
  optimizerRuns : Value := .int 200
  evmVersion : Value := .null
  remappings : Value := .list []
  libraries : Value := .object []
  viaIr : Value := .bool false

namespace Value

/-- An object of texts. -/
def ofTexts (m : OrderedMap String) : Value := .object (m.entries.map fun e => (e.1, .text e.2))

/-- An object of objects of texts. -/
def ofLibraries (m : OrderedMap (OrderedMap String)) : Value :=
  .object (m.entries.map fun e => (e.1, ofTexts e.2))

mutual

/-- The value with the members of every object in ascending order of names. -/
def sortMembers : Value → Value
  | list items => list (sortItems items)
  | object ms => object ((sortEach ms).mergeSort fun a b => decide (a.1 ≤ b.1))
  | v => v

/-- The items, each sorted within. -/
def sortItems : List Value → List Value
  | [] => []
  | v :: rest => sortMembers v :: sortItems rest

/-- The members in their order, each sorted within. -/
def sortEach : List (String × Value) → List (String × Value)
  | [] => []
  | (k, v) :: rest => (k, sortMembers v) :: sortEach rest

end

/-- The object of texts that a value is. -/
def toTexts : Value → Except Fault (OrderedMap String)
  | object ms => do
    let texts ← ms.mapM fun m => match m.2 with
      | text s => .ok (m.1, s)
      | _ => .error .wrongType
    return OrderedMap.ofList texts
  | _ => .error .wrongType

/-- The object of objects of texts that a value is. -/
def toLibraries : Value → Except Fault (OrderedMap (OrderedMap String))
  | object ms => do
    let units ← ms.mapM fun m => m.2.toTexts.map (m.1, ·)
    return OrderedMap.ofList units
  | _ => .error .wrongType

/-- The list of texts that a value is. -/
def toTextList : Value → Except Fault (List String)
  | list items => items.mapM fun v => match v with
    | text s => .ok s
    | _ => .error .wrongType
  | _ => .error .wrongType

end Value

namespace StoredSettings

/-- Sets one member; `none` if settings have no member of that name. -/
def set? (s : StoredSettings) (name : String) (v : Value) : Option StoredSettings :=
  match name with
  | "optimizer_enabled" => some { s with optimizerEnabled := v }
  | "optimizer_runs" => some { s with optimizerRuns := v }
  | "evm_version" => some { s with evmVersion := v }
  | "remappings" => some { s with remappings := v }
  | "libraries" => some { s with libraries := v }
  | "via_ir" => some { s with viaIr := v }
  | _ => none

/-- The settings of a document: an object whose members are all settings. -/
def ofValue : Value → Except Fault StoredSettings
  | .object ms => ms.foldlM (fun s m => match s.set? m.1 m.2 with
      | some s => .ok s
      | none => .error .wrongType) {}
  | _ => .error .wrongType

/-- The settings of a stored text. -/
def ofText (s : String) : Except Fault StoredSettings := Json.parse s >>= ofValue

/-- The members in the order of the fields. -/
def toValue (s : StoredSettings) : Value :=
  .object [("optimizer_enabled", s.optimizerEnabled), ("optimizer_runs", s.optimizerRuns),
    ("evm_version", s.evmVersion), ("remappings", s.remappings), ("libraries", s.libraries),
    ("via_ir", s.viaIr)]

/-- The stored text: member names are sorted at every level. -/
def toText (s : StoredSettings) : String := Json.write s.toValue.sortMembers

/-- The settings, if every member has its type. -/
def settings (s : StoredSettings) : Except Fault CompilerSettings := do
  let remappings ← s.remappings.toTextList
  let libraries ← s.libraries.toLibraries
  match s.optimizerEnabled, s.optimizerRuns, s.viaIr with
  | .bool enabled, .int runs, .bool viaIr =>
    match s.evmVersion with
    | .null => return ⟨enabled, runs, none, remappings, libraries, viaIr⟩
    | .text v => return ⟨enabled, runs, some v, remappings, libraries, viaIr⟩
    | _ => throw .wrongType
  | _, _, _ => throw .wrongType

end StoredSettings

namespace CompilerSettings

/-- The settings as they are stored. -/
def stored (s : CompilerSettings) : StoredSettings where
  optimizerEnabled := .bool s.optimizerEnabled
  optimizerRuns := .int s.optimizerRuns
  evmVersion := .ofText? s.evmVersion
  remappings := .list (s.remappings.map .text)
  libraries := .ofLibraries s.libraries
  viaIr := .bool s.viaIr

/-- The stored text of settings that can be written. -/
def toText (s : CompilerSettings) : String := s.stored.toText

/-- The stored text of settings, unless their number of optimizer runs is too long to be written. -/
def dump (s : CompilerSettings) : Except Fault String :=
  if Json.isWritable s.stored.toValue then .ok s.toText else .error .tooLongToWrite

/-- The settings of a stored text. -/
def ofText (text : String) : Except Fault CompilerSettings :=
  StoredSettings.ofText text >>= StoredSettings.settings

/-- The settings in the compiler's document format; what is empty or off is left out. -/
def standardMembers (s : CompilerSettings) : List (String × Value) :=
  let optimizer : Value :=
    .object [("enabled", .bool s.optimizerEnabled), ("runs", .int s.optimizerRuns)]
  let evm := s.evmVersion.getD ""
  [("optimizer", optimizer)]
    ++ (if evm.isEmpty then [] else [("evmVersion", .text evm)])
    ++ (if s.remappings.isEmpty then [] else [("remappings", .list (s.remappings.map .text))])
    ++ (if s.libraries.isEmpty then [] else [("libraries", .ofLibraries s.libraries)])
    ++ (if s.viaIr then [("viaIR", .bool true)] else [])

end CompilerSettings

end SelectorCatalog
