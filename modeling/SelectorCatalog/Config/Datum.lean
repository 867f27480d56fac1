import SelectorCatalog.Json.Key
import SelectorCatalog.Text.LowerCase

/-!
# Setting values

Settings come from a file, the environment, the command line or a document, and a value may be of
another type than its setting. `Datum` is such a value, and its conversions are the rules for each
type of setting.
-/

set_option autoImplicit false

namespace SelectorCatalog

/-- A value of a kind that is not told apart here, by what settings make of it. -/
structure OtherValue where
  shown : String
  /-- Its form inside a list or a mapping. -/
  inside : String
  /-- Whether these have a whole number with too many digits. -/
  isTooLong : Bool
  /-- Whether it counts as given. -/
  counts : Bool
  whole : Except Fault Int
  number : Except Fault Double
  deriving Inhabited

/-- A value given to a setting. -/
inductive Datum where
  | null
  | bool (b : Bool)
  | int (n : Int)
  | double (d : Double)
  | text (s : String)
  | date (year month day : Nat)
  | list (items : List Datum)
  /-- A mapping, whose keys need not be texts. -/
  | mapping (entries : List (Datum × Datum))
  | other (v : OtherValue)
  deriving Inhabited

mutual

/-- The setting value that a document stands for. -/
def Value.datum : Value → Datum
  | .null => .null
  | .bool b => .bool b
  | .int n => .int n
  | .double d => .double d
  | .text s => .text s
  | .list items => .list (Value.itemData items)
  | .object ms => .mapping (Value.memberData ms)

/-- The setting values of list items. -/
def Value.itemData : List Value → List Datum
  | [] => []
  | v :: rest => Value.datum v :: Value.itemData rest

/-- The setting values of members by name. -/
def Value.memberData : List (String × Value) → List (Datum × Datum)
  | [] => []
  | (k, v) :: rest => (.text k, Value.datum v) :: Value.memberData rest

end

namespace Datum

/-- A number with zeros in front up to a width. -/
def padded (width n : Nat) : String :=
  let digits := toString n
  String.ofList (List.replicate (width - digits.length) '0') ++ digits

mutual

/-- The form of a value inside a list or a mapping. -/
def quoted : Datum → String
  | null => "None"
  | bool b => if b then "True" else "False"
  | int n => toString n
  | double d => d.render
  | text s => Text.quoted s
  | date y m d =>
    "datetime.date(" ++ toString y ++ ", " ++ toString m ++ ", " ++ toString d ++ ")"
  | list items => "[" ++ quotedItems items ++ "]"
  | mapping entries => "\x7b" ++ quotedEntries entries ++ "\x7d"
  | other v => v.inside

/-- Items between commas. -/
def quotedItems : List Datum → String
  | [] => ""
  | [v] => quoted v
  | v :: rest => quoted v ++ ", " ++ quotedItems rest

/-- Entries between commas. -/
def quotedEntries : List (Datum × Datum) → String
  | [] => ""
  | [(k, v)] => quoted k ++ ": " ++ quoted v
  | (k, v) :: rest => quoted k ++ ": " ++ quoted v ++ ", " ++ quotedEntries rest

end

/-- The text of a value. -/
def display : Datum → String
  | text s => s
  | date y m d => padded 4 y ++ "-" ++ padded 2 m ++ "-" ++ padded 2 d
  | other v => v.shown
  | v => quoted v

mutual

/-- Whether the text of a value has a whole number with too many digits. -/
def isTooLong : Datum → Bool
  | int n => !decide (Text.IsShort n)
  | list items => areTooLong items
  | mapping entries => haveTooLong entries
  | other v => v.isTooLong
  | _ => false

/-- Whether one of some items is too long. -/
def areTooLong : List Datum → Bool
  | [] => false
  | v :: rest => isTooLong v || areTooLong rest

/-- Whether a key or a value of some entries is too long. -/
def haveTooLong : List (Datum × Datum) → Bool
  | [] => false
  | (k, v) :: rest => isTooLong k || isTooLong v || haveTooLong rest

end

/-- Whether a value counts as given. -/
def isGiven : Datum → Bool
  | null => false
  | bool b => b
  | int n => n != 0
  | double d => !d.isZero
  | text s => !s.isEmpty
  | date _ _ _ => true
  | list items => !items.isEmpty
  | mapping entries => !entries.isEmpty
  | other v => v.counts

/-- The text that a value gives to a setting. -/
def toText (d : Datum) : Except Fault String :=
  if d.isTooLong then .error .tooLongToWrite else .ok d.display

/-- The whole number that a value gives to a setting; a fraction is cut off. -/
def toInteger : Datum → Except Fault Int
  | bool b => .ok (if b then 1 else 0)
  | int n => .ok n
  | double d => match d.truncate with
    | .ok n => .ok n
    | .error .notANumber => .error (.badValue "cannot convert float NaN to integer")
    | .error .infinite => .error .overflow
  | text s => integerOf s
  | other v => v.whole
  | _ => .error .wrongType

/-- The double that a value gives to a setting. -/
def toDouble : Datum → Except Fault Double
  | bool b => doubleOfInt (if b then 1 else 0)
  | int n => doubleOfInt n
  | double d => .ok d
  | text s => doubleOf s
  | other v => v.number
  | _ => .error .wrongType
where
  /-- The double nearest to a whole number. -/
  doubleOfInt (n : Int) : Except Fault Double :=
    match Double.ofInt? n with
    | some d => .ok d
    | none => .error .overflow

/-- The truth value that a value gives to a setting. -/
def toFlag : Datum → Bool
  | text s =>
    let word := Text.lower s
    word == "true" || word == "1" || word == "yes"
  | v => v.isGiven

/-- Whether a value can be the key of a mapping. -/
def isKey : Datum → Bool
  | list _ | mapping _ => false
  | _ => true

/-- What a key is known by; dates are not told apart from other keys. -/
def key? : Datum → Option ValueKey
  | null => some .null
  | bool b => some (.ofBool b)
  | int n => some (.whole n)
  | double d => some (.ofDouble d)
  | text s => some (.text s)
  | _ => none

/-- Sets the value of a key, at the place of one that is there. -/
def setEntry (key value : Datum) : List (Datum × Datum) → List (Datum × Datum)
  | [] => [(key, value)]
  | (k, v) :: rest =>
    if k.key?.isSome && k.key? = key.key? then (k, value) :: rest
      else (k, v) :: setEntry key value rest

end Datum

end SelectorCatalog
