import SelectorCatalog.Config.Scalar
import SelectorCatalog.Config.Token
import SelectorCatalog.Text.Utf8

/-!
# Settings documents

A settings text holds one document: a word, a sequence or a mapping, in blocks or in brackets. What
is left out is nothing. A text with a second document, or one that is not well formed, is refused as
a whole.
-/

set_option autoImplicit false

namespace SelectorCatalog.Config

/-- A document as it is written. -/
inductive Node where
  | scalar (content : String) (plain : Bool)
  | sequence (items : List Node)
  | mapping (entries : List (Node × Node))
  deriving Inhabited

/-- What is left out. -/
def Node.empty : Node := .scalar "" true

/-- The tokens of the next item: items after the first have a separator in front. -/
def afterSeparator (isFirst : Bool) (ts : List Token) : Option (List Token) :=
  if isFirst then some ts
  else match ts with
    | .separator :: ts => some ts
    | _ => none

mutual

/-- A node; `block` tells that blocks are allowed, and `indentless` that the entries of a sequence
may stand without indentation. Each step of these readers takes one unit of the first argument. -/
def readNode : Nat → Bool → Bool → List Token → Option (Node × List Token)
  | 0, _, _, _ => none
  | fuel + 1, block, indentless, ts =>
    match ts with
    | .scalar s plain :: ts => some (.scalar s plain, ts)
    | .sequenceStart :: ts => (readFlowItems fuel true ts).map fun (xs, ts) => (.sequence xs, ts)
    | .mappingStart :: ts => (readFlowEntries fuel true ts).map fun (es, ts) => (.mapping es, ts)
    | .blockEntry :: _ =>
      if indentless then (readIndentless fuel ts).map fun (xs, ts) => (.sequence xs, ts) else none
    | .blockSequence :: ts =>
      if block then (readBlockItems fuel ts).map fun (xs, ts) => (.sequence xs, ts) else none
    | .blockMapping :: ts =>
      if block then (readBlockEntries fuel ts).map fun (es, ts) => (.mapping es, ts) else none
    | _ => none

/-- A node, or nothing before one of the tokens in `stops`. -/
def readOptional : Nat → Bool → Bool → List Token → List Token → Option (Node × List Token)
  | 0, _, _, _, _ => none
  | fuel + 1, block, indentless, stops, ts =>
    match ts with
    | t :: _ =>
      if stops.contains t then some (.empty, ts) else readNode fuel block indentless ts
    | [] => none

/-- The value after a key, which may be left out. -/
def readValue : Nat → Bool → List Token → List Token → Option (Node × List Token)
  | 0, _, _, _ => none
  | fuel + 1, block, stops, ts =>
    match ts with
    | .value :: ts => readOptional fuel block block stops ts
    | _ => some (.empty, ts)

/-- The entries of a block sequence. -/
def readBlockItems : Nat → List Token → Option (List Node × List Token)
  | 0, _ => none
  | fuel + 1, ts =>
    match ts with
    | .blockEntry :: ts => do
      let (x, ts) ← readOptional fuel true false [.blockEntry, .blockEnd] ts
      let (xs, ts) ← readBlockItems fuel ts
      return (x :: xs, ts)
    | .blockEnd :: ts => some ([], ts)
    | _ => none

/-- The entries of a sequence without indentation. -/
def readIndentless : Nat → List Token → Option (List Node × List Token)
  | 0, _ => none
  | fuel + 1, ts =>
    match ts with
    | .blockEntry :: ts => do
      let (x, ts) ← readOptional fuel true false [.blockEntry, .key, .value, .blockEnd] ts
      let (xs, ts) ← readIndentless fuel ts
      return (x :: xs, ts)
    | _ => some ([], ts)

/-- The entries of a block mapping. -/
def readBlockEntries : Nat → List Token → Option (List (Node × Node) × List Token)
  | 0, _ => none
  | fuel + 1, ts =>
    match ts with
    | .key :: ts => do
      let (k, ts) ← readOptional fuel true true [.key, .value, .blockEnd] ts
      let (v, ts) ← readValue fuel true [.key, .value, .blockEnd] ts
      let (es, ts) ← readBlockEntries fuel ts
      return ((k, v) :: es, ts)
    | .blockEnd :: ts => some ([], ts)
    | _ => none

/-- The items of a sequence in brackets; a key makes an item a mapping of one entry. -/
def readFlowItems : Nat → Bool → List Token → Option (List Node × List Token)
  | 0, _, _ => none
  | fuel + 1, isFirst, ts =>
    match ts with
    | .sequenceEnd :: ts => some ([], ts)
    | _ => do
      let ts ← afterSeparator isFirst ts
      match ts with
      | .sequenceEnd :: ts => return ([], ts)
      | .key :: ts =>
        let (k, ts) ← readOptional fuel false false [.value, .separator, .sequenceEnd] ts
        let (v, ts) ← readValue fuel false [.separator, .sequenceEnd] ts
        let (xs, ts) ← readFlowItems fuel false ts
        return (.mapping [(k, v)] :: xs, ts)
      | ts =>
        let (x, ts) ← readNode fuel false false ts
        let (xs, ts) ← readFlowItems fuel false ts
        return (x :: xs, ts)

/-- The entries of a mapping in brackets. -/
def readFlowEntries : Nat → Bool → List Token → Option (List (Node × Node) × List Token)
  | 0, _, _ => none
  | fuel + 1, isFirst, ts =>
    match ts with
    | .mappingEnd :: ts => some ([], ts)
    | _ => do
      let ts ← afterSeparator isFirst ts
      match ts with
      | .mappingEnd :: ts => return ([], ts)
      | .key :: ts =>
        let (k, ts) ← readOptional fuel false false [.value, .separator, .mappingEnd] ts
        let (v, ts) ← readValue fuel false [.separator, .mappingEnd] ts
        let (es, ts) ← readFlowEntries fuel false ts
        return ((k, v) :: es, ts)
      | ts =>
        let (k, ts) ← readNode fuel false false ts
        let (es, ts) ← readFlowEntries fuel false ts
        return ((k, .empty) :: es, ts)

end

/-- Whether nothing but marks of a document's end is left. -/
def isOver (ts : List Token) : Bool := ts.all (· == .documentEnd)

/-- The node that stands before the end of a document, which may be nothing. -/
def readContent (ts : List Token) : Option (Node × List Token) :=
  match ts with
  | [] => some (.empty, [])
  | t :: _ =>
    if [Token.directive, .documentStart, .documentEnd].contains t then some (.empty, ts)
    else readNode (4 * ts.length + 4) true false ts

/-- The document of a list of tokens, `none` if there is none to read. -/
def readDocument (ts : List Token) : Option Node := do
  match ts with
  | [] => return .empty
  | .directive :: _ | .documentStart :: _ =>
    match ts.dropWhile (· == .directive) with
    | .documentStart :: ts =>
      let (x, ts) ← readContent ts
      if isOver ts then return x else none
    | _ => none
  | _ =>
    let (x, ts) ← readNode (4 * ts.length + 4) true false ts
    if isOver ts then return x else none

/-- Whether an entry stands for the entries of other mappings. -/
def isMerge (e : Node × Node) : Bool :=
  match e.1 with
  | .scalar content plain => plain && content == "<<"
  | _ => false

mutual

/-- The entries of a mapping, and before them those that it takes over from other mappings. The
first argument bounds the depth. -/
def allEntries : Nat → List (Node × Node) → Option (List (Node × Node))
  | 0, _ => none
  | fuel + 1, entries => do
    let merged ← (entries.filter isMerge).mapM fun e => mergedEntries fuel e.2
    return merged.flatten ++ entries.filter fun e => !isMerge e

/-- The entries that a node under the key `<<` stands for: those of a mapping, or of a sequence of
mappings, the last one first. -/
def mergedEntries : Nat → Node → Option (List (Node × Node))
  | 0, _ => none
  | fuel + 1, x =>
    match x with
    | .mapping entries => allEntries fuel entries
    | .sequence items => do
      let found ← items.mapM fun item => match item with
        | .mapping entries => allEntries fuel entries
        | _ => none
      return found.reverse.flatten
    | .scalar _ _ => none

end

/-- A key; the word `=` stands for itself there. -/
def asKey (k : Node) : Node :=
  match k with
  | .scalar content _ => if content == "=" then .scalar content false else k
  | _ => k

mutual

/-- The value of a node. The first argument bounds the depth. -/
def nodeDatum : Nat → Node → Except Fault Datum
  | 0, _ => .error .badSettings
  | fuel + 1, x =>
    match x with
    | .scalar s plain => if plain then plainWordDatum s else .ok (.text s)
    | .sequence items => do return .list (← nodeData fuel items)
    | .mapping entries => match allEntries fuel entries with
      | none => .error .badSettings
      | some entries => do return .mapping (← entryData fuel [] entries)

/-- The values of nodes in order. -/
def nodeData : Nat → List Node → Except Fault (List Datum)
  | 0, _ => .error .badSettings
  | _, [] => .ok []
  | fuel + 1, x :: rest => do
    let d ← nodeDatum fuel x
    return d :: (← nodeData fuel rest)

/-- The entries of a mapping; of two with one key the last counts, at the place of the first. -/
def entryData : Nat → List (Datum × Datum) → List (Node × Node) →
    Except Fault (List (Datum × Datum))
  | 0, _, _ => .error .badSettings
  | _, done, [] => .ok done
  | fuel + 1, done, (k, v) :: rest => do
    let key ← nodeDatum fuel (asKey k)
    if !key.isKey then throw .badSettings
    let value ← nodeDatum fuel v
    entryData fuel (Datum.setEntry key value done) rest

end

/-- The value that a settings text holds. -/
def readText (text : String) : Except Fault Datum :=
  match tokens? text.toList with
  | none => .error .badSettings
  | some ts => match readDocument ts with
    | none => .error .badSettings
    | some x => nodeDatum (4 * ts.length + 8) x

/-- The value that the bytes of a settings file hold. They must be those of a text before anything
is read. -/
def readSettings (content : List UInt8) : Except Fault Datum :=
  match Text.decode? content with
  | none => .error .badEncoding
  | some text => readText (String.ofList (Text.lineFeeds text))

end SelectorCatalog.Config
