import SelectorCatalog.Corpus.Record
import SelectorCatalog.Files.Tree

/-!
# Reading a corpus

A corpus is a tree of files: a bulk dataset with one folder per contract, told by its
`metadata.json`, or a collection of explorer answers, one `.json` file each. What cannot be opened
or holds no document becomes a record without payload, so that loading decides what to do about it.
Bytes that are no text stop the reading.
-/

set_option autoImplicit false

namespace SelectorCatalog

/-- Records in order, and the fault that stopped the reading after them, if one did. -/
structure CorpusStream where
  records : List RawRecord := []
  stop : Option Fault := none

namespace CorpusStream

/-- The records of a list of readings up to the first fault. -/
def ofReadings : List (Except Fault RawRecord) → CorpusStream
  | [] => {}
  | .ok r :: rest => let s := ofReadings rest; { s with records := r :: s.records }
  | .error f :: _ => { stop := some f }

/-- One reading after another; nothing follows a fault. -/
def append (a b : CorpusStream) : CorpusStream :=
  if a.stop.isSome then a else ⟨a.records ++ b.records, b.stop⟩

end CorpusStream

namespace Corpus

/-- The name of the file that tells a folder of the dataset. -/
def metadataName : String := "metadata.json"

/-- Whether a text ends in another one. -/
def endsIn (ending s : String) : Bool := ending.toList.isSuffixOf s.toList

/-- The text of a file, with line feeds for all line breaks. -/
def textOf (content : List UInt8) : Except Fault String :=
  match Text.decode? content with
  | some s => .ok (String.ofList (Text.lineFeeds s))
  | none => .error .badEncoding

/-- The text of a file, whatever its bytes are. -/
def lenientText (content : List UInt8) : String :=
  String.ofList (Text.lineFeeds (Text.decodeReplacing content))

/-- The document in a file; `none` if it was not opened or its text is not one. -/
def documentOf : Option (List UInt8) → Except Fault (Option Value)
  | none => .ok none
  | some content => do
    match Json.parse (← textOf content) with
    | .ok v => return some v
    | .error (.badDocument _) => return none
    | .error f => throw f

/-- Whether a file of a folder is a source. -/
def isSource (name : String) : Bool :=
  name != metadataName && [".sol", ".vy", ".json"].any fun ending => endsIn ending name

/-- The files of a folder by name, in ascending order; `under` lists what is below the folder's
parent, each with the names on the way. -/
def filesIn (folder : List String) (under : List (List String × Entry)) :
    List (String × List UInt8) :=
  under.filterMap fun x => match x.1.getLast?, x.2 with
    | some name, .file content => if x.1.dropLast = folder then some (name, content) else none
    | _, _ => none

/-- The files of a folder at a location, with the content of those that may be opened. -/
def openedFiles (t : Tree) (l : Location) (files : List (String × List UInt8)) :
    List (String × Option (List UInt8)) :=
  files.map fun f => (f.1, t.opened (l ++ [f.1]) f.2)

/-- The sources of a folder; `none` if one of them was not opened. -/
def sourcesOf (files : List (String × Option (List UInt8))) : Option (List (String × Value)) :=
  let sources := files.filter fun f => isSource f.1
  if sources.any fun f => f.2.isNone then none
  else some (sources.filterMap fun f => f.2.map fun content => (f.1, .text (lenientText content)))

/-- The record of a folder: its metadata, and the sources beside it. -/
def folderRecord (origin : Path) (metadata : Option (List UInt8))
    (files : List (String × Option (List UInt8))) : Except Fault RawRecord := do
  match ← documentOf metadata, sourcesOf files with
  | some document, some sources =>
    return ⟨.folder, origin.render, .object [("metadata", document), ("files", .object sources)]⟩
  | _, _ => return ⟨.folder, origin.render, .null⟩

/-- The records of a bulk dataset, folder by folder in the order of the names on the way. -/
def folderRecords (t : Tree) (root : String) : CorpusStream :=
  if root.toList.contains (Char.ofNat 0) then { stop := some (.badValue "embedded null byte") }
  else if root.isEmpty then {}
  else match t.directory? (.ofText root) with
    | none => {}
    | some l =>
      let under := t.below l
      .ofReadings <| (folders under).map fun x =>
        folderRecord ((Path.ofText root).join ⟨.relative, x.1⟩)
          (t.opened (l ++ x.1 ++ [metadataName]) x.2) (openedFiles t (l ++ x.1) (filesIn x.1 under))
where
  /-- The folders with metadata. -/
  folders (under : List (List String × Entry)) : List (List String × List UInt8) :=
    (under.filterMap fun x => match x.2 with
      | .file content =>
        if x.1.getLast? = some metadataName then some (x.1.dropLast, content) else none
      | .directory => none).mergeSort fun a b => namesUpTo a.1 b.1

/-- The record of an explorer's answer. -/
def answerRecord (origin : Path) (content : Option (List UInt8)) : Except Fault RawRecord := do
  return ⟨.explorerAnswer, origin.render, (← documentOf content).getD .null⟩

/-- The records of a collection of explorer answers, in the order of the names on the way. -/
def answerRecords (t : Tree) (root : String) : CorpusStream :=
  let p := Path.ofText root
  match t.locate p with
  | .error .fileSystem => { stop := some .fileSystem }
  | _ => match t.directory? p with
    | none => {}
    | some l => .ofReadings <| (answers (t.below l)).map fun x =>
        answerRecord (p.join ⟨.relative, x.1⟩) (t.opened (l ++ x.1) x.2)
where
  /-- The files with answers. -/
  answers (under : List (List String × Entry)) : List (List String × List UInt8) :=
    under.filterMap fun x => match x.2 with
      | .file content => if x.1.getLast?.any (endsIn ".json") then some (x.1, content) else none
      | .directory => none

end Corpus

end SelectorCatalog
