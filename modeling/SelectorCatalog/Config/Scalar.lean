import SelectorCatalog.Config.Datum

/-!
# Plain words of a settings text

A word without quotes may be a truth value, a number, a date or nothing; any other word is a text. A
decimal number has a point, and its power of ten a sign.
-/

set_option autoImplicit false

namespace SelectorCatalog.Config

/-- The truth value that a word stands for. -/
def truthWord? (s : String) : Option Bool :=
  if ["yes", "Yes", "YES", "true", "True", "TRUE", "on", "On", "ON"].contains s then some true
  else if ["no", "No", "NO", "false", "False", "FALSE", "off", "Off",
    "OFF"].contains s then some false
  else none

/-- Whether a word stands for nothing. -/
def isNullWord (s : String) : Bool := ["", "~", "null", "Null", "NULL"].contains s

/-- Whether a character is a digit or an underscore. -/
def isLooseDigit (c : Char) : Bool := c.isDigit || c == '_'

/-- A text without underscores. -/
def dropUnderscores (s : List Char) : List Char := s.filter (· != '_')

/-- The number of digits in a base. -/
def inBase (base : Nat) (digits : List Char) : Except Fault Nat :=
  let values := (dropUnderscores digits).filterMap Text.hexValue?
  if values.isEmpty then
    .error (.badValue ("invalid literal for int() with base " ++ toString base ++ ": \x27\x27"))
  else .ok (values.foldl (fun n d => base * n + d) 0)

/-- Whether parts after a first one are minutes or seconds. -/
def isSixtieth (part : List Char) : Bool :=
  match part with
  | [c] => c.isDigit
  | [c, d] => '0' ≤ c && c ≤ '5' && d.isDigit
  | _ => false

/-- The whole number that an unsigned word stands for: binary, hexadecimal, octal after a zero,
decimal, or groups of sixtieths. -/
def unsignedInteger? (s : List Char) : Option (Except Fault Nat) :=
  match s with
  | '0' :: 'b' :: ds =>
    if !ds.isEmpty && ds.all (fun c => c == '0' || c == '1' || c == '_') then
      some (inBase 2 ds) else none
  | '0' :: 'x' :: ds =>
    if !ds.isEmpty && ds.all (fun c => (Text.hexValue? c).isSome || c == '_') then
      some (inBase 16 ds)
    else none
  | ['0'] => some (.ok 0)
  | '0' :: ds =>
    if ds.all fun c => '0' ≤ c && c ≤ '7' || c == '_' then some (inBase 8 ('0' :: ds)) else none
  | c :: ds =>
    if !c.isDigit then none
    else if ds.all isLooseDigit then
      let digits := dropUnderscores (c :: ds)
      some (if digits.length > Text.maxDigits then .error (Fault.tooManyDigits digits.length)
        else inBase 10 digits)
    else match (c :: ds).splitOn ':' with
      | first :: second :: more =>
        if (first.drop 1).all isLooseDigit && (second :: more).all isSixtieth then
          some do
            let parts ← (first :: second :: more).mapM (inBase 10)
            return parts.foldl (fun n d => 60 * n + d) 0
        else none
      | _ => none
  | [] => none

/-- The whole number that a word stands for. -/
def integerWord? (s : List Char) : Option (Except Fault Int) :=
  let (negative, body) := Text.takeSign s
  (unsignedInteger? body).map fun n => n.map fun k => if negative then -(k : Int) else k

/-- Whether a text is the power of ten of a decimal word: none, or one with a sign. -/
def isPower (s : List Char) : Bool :=
  match s with
  | [] => true
  | e :: sign :: ds =>
    (e == 'e' || e == 'E') && (sign == '+' || sign == '-') && !ds.isEmpty && ds.all Char.isDigit
  | _ => false

/-- Whether a word is a decimal number. -/
def isDecimalWord (s : List Char) : Bool :=
  match s with
  | '.' :: c :: rest => c.isDigit && isPower (rest.dropWhile isLooseDigit)
  | _ =>
    match (Text.takeSign s).2 with
    | c :: rest => c.isDigit && match rest.dropWhile isLooseDigit with
      | '.' :: fraction => isPower (fraction.dropWhile isLooseDigit)
      | _ => false
    | [] => false

/-- Whether an unsigned word is a decimal number in groups of sixtieths. -/
def isSixtiethDecimal (s : List Char) : Bool :=
  match s.splitOn ':' with
  | first :: second :: more =>
    let last := (second :: more).getLastD second
    let whole := last.takeWhile (· != '.')
    let fraction := last.drop whole.length
    first.head?.any Char.isDigit && first.all isLooseDigit
      && ((second :: more).dropLast ++ [whole]).all isSixtieth
      && fraction.head? = some '.' && (fraction.drop 1).all isLooseDigit
  | _ => false

/-- The number that groups of sixtieths stand for, the last group first, `unit` being what one of
the first of them is worth. -/
def sumOfSixtieths : Nat → List Double → Double → Double
  | _, [], sum => sum
  | unit, group :: more, sum =>
    sumOfSixtieths (60 * unit) more (sum.addMagnitude (group.timesMagnitude unit))

/-- The double that an unsigned word of groups of sixtieths stands for. -/
def sixtiethDouble? (s : List Char) : Option Double := do
  let groups ← ((dropUnderscores s).splitOn ':').mapM fun g => Text.readDecimal? (String.ofList g)
  return sumOfSixtieths 1 (groups.map Double.ofDecimal).reverse (.zero false)

/-- The double that a word stands for. -/
def doubleWord? (s : List Char) : Option Double :=
  let (negative, body) := Text.takeSign s
  if [".inf", ".Inf", ".INF"].contains (String.ofList body) then some (.infinite negative)
  else if [".nan", ".NaN", ".NAN"].contains (String.ofList s) then some .nan
  else if isDecimalWord s then
    (Text.readDecimal? (String.ofList (dropUnderscores s))).map Double.ofDecimal
  else if isSixtiethDecimal body then
    (sixtiethDouble? body).map fun d => if negative then d.negated else d
  else none

/-- The number of days of a month. -/
def daysIn (year month : Nat) : Nat :=
  if month == 2 then
    if year % 4 == 0 && (year % 100 != 0 || year % 400 == 0) then 29 else 28
  else if [4, 6, 9, 11].contains month then 30 else 31

/-- The date of a year, a month and a day. -/
def dateOf (year month day : Nat) : Except Fault Datum :=
  if year == 0 then .error (.badValue "year 0 is out of range")
  else if month == 0 || month > 12 then .error (.badValue "month must be in 1..12")
  else if day == 0 || day > daysIn year month then
    .error (.badValue "day is out of range for month")
  else .ok (.date year month day)

/-- The date that a word stands for: four digits, two and two. -/
def dateWord? (s : List Char) : Option (Except Fault Datum) :=
  match s.splitOn '-' with
  | [y, m, d] =>
    if y.length == 4 && m.length == 2 && d.length == 2 && (y ++ m ++ d).all Char.isDigit then
      let number (ds : List Char) := Text.digitsValue (ds.map fun c => c.toNat - 48)
      some (dateOf (number y) (number m) (number d))
    else none
  | _ => none

/-- What a word without quotes stands for. -/
def plainWordDatum (s : String) : Except Fault Datum :=
  let cs := s.toList
  if isNullWord s then .ok .null
  else if s == "=" || s == "<<" then .error .badSettings
  else match truthWord? s, doubleWord? cs with
    | some b, _ => .ok (.bool b)
    | none, some d => .ok (.double d)
    | none, none => match integerWord? cs, dateWord? cs with
      | some n, _ => n.map .int
      | none, some d => d
      | none, none => .ok (.text s)

end SelectorCatalog.Config
