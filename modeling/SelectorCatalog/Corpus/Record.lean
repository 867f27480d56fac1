import SelectorCatalog.Contract.Basic
import SelectorCatalog.Corpus.Metadata

/-!
# Corpus records

A record is a folder of a bulk dataset (`metadata.json` beside the sources) or one answer of a block
explorer, whose source code is plain, an object of sources, or a compiler input in doubled braces.
`RawRecord.normalize` turns either into a contract, so nothing after it knows the layouts apart.
-/

set_option autoImplicit false

namespace SelectorCatalog

/-- The kinds of record. -/
inductive RecordKind where
  | folder
  | explorerAnswer
  | other (label : String)
  deriving DecidableEq

namespace RecordKind

/-- The text of a kind. -/
def label : RecordKind → String
  | folder => "bulk_dataset"
  | explorerAnswer => "etherscan_json"
  | other s => s

/-- The kind of a text. -/
def ofLabel (s : String) : RecordKind :=
  if s == folder.label then folder else if s == explorerAnswer.label then explorerAnswer
    else other s

end RecordKind

/-- One entry of a corpus as it was found; its origin is the folder or file. -/
structure RawRecord where
  kind : RecordKind
  origin : String
  /-- For a folder, the metadata and the files by name; for an answer, the document; null if the
  record could not be read. -/
  payload : Value

namespace RawRecord

open RecordFlaw (lift)

/-- Sources and settings of a record, and how they were laid out. -/
structure Layout where
  sources : List (String × String)
  settings : CompilerSettings
  format : SourceFormat

/-- The sources with inline content among the entries of an object. -/
def sourceEntries (entries : Value) : Except RecordFlaw (List (String × String)) := do
  let ms ← lift entries.members
  let found := ms.filterMap fun m => match m.2 with
    | .object inner => (Assoc.get? "content" inner).map fun v => (m.1, v.display)
    | .text s => some (m.1, s)
    | _ => none
  if found.isEmpty then throw .noInlineContent else return found

/-- The settings of a compiler input; what it lacks is taken from the metadata. -/
def standardSettings (raw : Value) (fallback : CompilerSettings) :
    Except Fault CompilerSettings := do
  let optimizer := (← raw.field "optimizer").orElse (.object [])
  let enabled ← optimizer.fieldD "enabled" (.bool fallback.optimizerEnabled)
  let runs ← Metadata.runs (← optimizer.fieldD "runs" (.int fallback.optimizerRuns))
  let machine := Metadata.machine (← raw.field "evmVersion")
  let remappings ← ((← raw.field "remappings").orElse (.list [])).parts
  let units ← ((← raw.field "libraries").orElse (.object [])).members
  let libraries ← units.mapM fun u => do
    let names ← u.2.members
    return (u.1, OrderedMap.ofList (names.map fun n => (n.1, n.2.display)))
  let viaIr ← raw.fieldD "viaIR" (.bool false)
  return {
    optimizerEnabled := Metadata.flag enabled
    optimizerRuns := runs
    evmVersion := machine.orElse fun _ => fallback.evmVersion
    remappings := remappings.map Value.display
    libraries := OrderedMap.ofList libraries
    viaIr := Metadata.flag viaIr }

/-- Sources and settings of a compiler input. -/
def standardInput (document : Value) (fallback : CompilerSettings) : Except RecordFlaw Layout := do
  match document with
  | .object _ =>
    let language ← lift do
      let spelled ← document.field "language"
      -- Some exports misspell the name of the member.
      let misspelled ← document.field "langauge"
      return (spelled.orElse misspelled).orElse (.text "Solidity")
    if Text.lower language.display != "solidity" then throw (.otherLanguage language)
    let sources ← sourceEntries ((← lift (document.field "sources")).orElse (.object []))
    let settings ← lift do
      standardSettings ((← document.field "settings").orElse (.object [])) fallback
    return ⟨sources, settings, .standardJson⟩
  | _ => throw .standardInputNotObject

/-- The settings that metadata gives; `unused` stands for an optimizer flag that is missing. -/
def metadataSettings (metadata : Value) (unused : Value) : Except Fault CompilerSettings := do
  let used ← metadata.fieldD "OptimizationUsed" unused
  let runs ← Metadata.runs (← metadata.field "Runs")
  let machine := Metadata.machine (← metadata.field "EVMVersion")
  return { optimizerEnabled := Metadata.flag used, optimizerRuns := runs, evmVersion := machine }

/-- The address that metadata gives, under either name. -/
def metadataAddress (metadata : Value) : Except Fault Value := do
  return (← metadata.field "ContractAddress").orElse (← metadata.field "address")

/-- The contract with its id. -/
def finish (c : Contract) : Except RecordFlaw Contract := lift c.withId

/-! ## Folders -/

/-- The files of a folder. Files that are no object hold names and no contents, so a file that is
asked for has a wrong type. -/
inductive Files where
  | byName (contents : List (String × Value))
  | names (names : List Value)
  | text (s : String)

/-- The files that a payload member holds. -/
def filesOf : Value → Except Fault Files
  | .object ms => .ok (.byName ms)
  | .list names => .ok (.names names)
  | .text s => .ok (.text s)
  | _ => .error .wrongType

/-- Whether `part` occurs in a text. -/
def occursIn (part : List Char) : List Char → Bool
  | [] => part.isEmpty
  | c :: rest => part.isPrefixOf (c :: rest) || occursIn part rest

/-- Whether a name is among the files. -/
def Files.has (name : String) : Files → Bool
  | .byName ms => (Assoc.get? name ms).isSome
  | .names vs => vs.any (Value.isText name)
  | .text s => occursIn name.toList s.toList

/-- The content of a file that is there. -/
def Files.content (name : String) : Files → Except Fault Value
  | .byName ms => match Assoc.get? name ms with
    | some v => .ok v
    | none => .error .missingMember
  | _ => .error .wrongType

/-- How two values compare, if they do: texts, and numbers among themselves. -/
def comparable : Value → Value → Bool
  | .text _, .text _ => true
  | .list _, .list _ => true
  | a, b => isNumber a && isNumber b
where
  isNumber : Value → Bool
    | .bool _ | .int _ | .double _ => true
    | _ => false

/-- The Solidity files that are left when no file has a name of its own, in order of names. -/
def Files.solidity : Files → Except Fault (List (String × Value))
  | .byName ms =>
    .ok ((ms.filter fun m => ".sol".toList.isSuffixOf m.1.toList).mergeSort fun a b =>
      decide (a.1 ≤ b.1))
  | .names [] => .ok []
  | .names (v :: rest) =>
    if !rest.isEmpty && !(rest.all (comparable v)) then .error .wrongType
    else if (v :: rest).all fun w => w matches .text _ then
      if (v :: rest).any fun w => match w with
        | .text s => ".sol".toList.isSuffixOf s.toList
        | _ => false
      then .error .wrongType else .ok []
    else .error .noSuchField
  | .text _ => .ok []

/-- Sources and settings of a folder: a compiler input first, then one main file, then all files.
The contents are not known to be texts yet. -/
def folderSources (files : Files) (settings : CompilerSettings) :
    Except RecordFlaw (List (String × Value) × CompilerSettings × SourceFormat) := do
  if files.has "contract.json" then
    match ← lift (files.content "contract.json") with
    | .text s =>
      let found ← standardInput (← lift (Json.parse s)) settings
      return (found.sources.map fun e => (e.1, .text e.2), found.settings, .standardJson)
    | _ => throw (.fault .wrongType)
  else if files.has "main.sol" then
    return ([("main.sol", ← lift (files.content "main.sol"))], settings, .singleFile)
  else if files.has "main.vy" then throw .vyper
  else return (← lift files.solidity, settings, .manyFiles)

/-- The contract of a folder. -/
def normalizeFolder (payload : Value) : Except RecordFlaw Contract := do
  let metadata ← lift (payload.field "metadata")
  let given := (← lift (payload.field "files")).orElse (.object [])
  match metadata with
  | .object _ =>
    let version ← Metadata.version (← lift (metadata.field "CompilerVersion"))
    let settings ← lift (metadataSettings metadata (.bool false))
    let files ← lift (filesOf given)
    let (sources, settings, format) ← folderSources files settings
    if sources.isEmpty then throw .noSourceFiles
    let address ← lift (metadataAddress metadata)
    let declared ← lift (Metadata.declaredName? (← lift (metadata.field "ContractName")))
    let texts ← lift (Metadata.contentTexts sources)
    let name ← Metadata.primaryName (texts.map Prod.snd) declared
    let args ← lift (metadata.field "ConstructorArguments")
    finish {
      name := some name
      compilerVersion := some version
      sources := texts
      settings
      sourceFormat := format
      address := Metadata.address? address
      constructorArgs := args.orElse .null }
  | _ => throw .missingMetadata

/-! ## Explorer answers -/

/-- The result in an explorer's answer: the answer itself, its `result`, or the first of a list. -/
def explorerResult (payload : Value) : Except RecordFlaw Value :=
  let inner := match payload with
    | .object ms => (Assoc.get? "result" ms).getD payload
    | v => v
  match inner with
  | .list [] => .error .emptyResultList
  | .list (.object ms :: _) => .ok (.object ms)
  | .object ms => .ok (.object ms)
  | _ => .error .resultNotObject

/-- The document that a source code holds. -/
def sourceDocument (s : List Char) : Except RecordFlaw Value :=
  match Json.read (String.ofList s) with
  | .ok v => .ok v
  | .error (.tooManyDigits n) => .error (.fault (Fault.tooManyDigits n))
  | .error e => .error (.badSourceDocument e)

/-- Sources and settings of an explorer's source code. -/
def explorerSources (raw declared : String) (settings : CompilerSettings) :
    Except RecordFlaw Layout := do
  let stripped := Text.trimList raw.toList
  if "\x7b\x7b".toList.isPrefixOf stripped && "\x7d\x7d".toList.isSuffixOf stripped then
    standardInput (← sourceDocument (stripped.drop 1).dropLast) settings
  else if "\x7b".toList.isPrefixOf stripped then
    match ← sourceDocument stripped with
    | .object ms =>
      if (Assoc.get? "sources" ms).isSome then standardInput (.object ms) settings
      else return ⟨← sourceEntries (.object ms), settings, .manyFiles⟩
    | _ => throw .oddSourceDocument
  else
    let name := Solidity.unqualified declared
    let stem := if name.isEmpty then "contract" else name
    return ⟨[(stem ++ ".sol", raw)], settings, .singleFile⟩

/-- Gives the libraries of the answer to the source units, unless the settings have libraries. -/
def withLibraries (found : Layout) (libraries : OrderedMap String) : CompilerSettings :=
  if libraries.isEmpty || !found.settings.libraries.isEmpty then found.settings
  else
    let paths := found.sources.map Prod.fst
    let units := if found.format = .singleFile then paths.take 1 else paths
    { found.settings with libraries := OrderedMap.ofList (units.map (·, libraries)) }

/-- The text of an optional member; what does not count as given is empty. -/
def optionalText (name : String) (v : Value) : Except Fault String := do
  return ((← v.field name).orElse (.text "")).display

/-- The contract of an explorer's answer. -/
def normalizeAnswer (payload : Value) (origin : String) : Except RecordFlaw Contract := do
  let result ← explorerResult payload
  let version := Text.trim (← lift (optionalText "CompilerVersion" result))
  if "vyper".toList.isPrefixOf (Text.lower version).toList then throw .vyper
  let version ← Metadata.version (.text version)
  let raw ← lift (optionalText "SourceCode" result)
  if (Text.trim raw).isEmpty then throw .emptySourceCode
  let declared := Text.trim (← lift (optionalText "ContractName" result))
  let settings ← lift (metadataSettings result (.text "0"))
  let found ← explorerSources raw declared settings
  let settings := withLibraries found (Metadata.libraries (← lift (result.field "Library")))
  let named := match Metadata.addressOfOrigin? origin with
    | some a => Value.text a
    | none => .null
  let address := (← lift (metadataAddress result)).orElse named
  let name ← Metadata.primaryName (found.sources.map Prod.snd)
    (← lift (Metadata.declaredName? (.text declared)))
  let args ← lift (optionalText "ConstructorArguments" result)
  finish {
    name := some name
    compilerVersion := some version
    sources := found.sources
    settings
    sourceFormat := found.format
    address := Metadata.address? address
    constructorArgs := if args.isEmpty then .null else .text args }

/-- The contract of a record. -/
def normalize (r : RawRecord) : Except MalformedRecord Contract :=
  (match r.kind with
    | .folder => normalizeFolder r.payload
    | .explorerAnswer => normalizeAnswer r.payload r.origin
    | .other label => .error (.unknownKind label)).mapError (⟨r.origin, ·⟩)

end RawRecord

end SelectorCatalog
