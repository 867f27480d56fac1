import SelectorCatalog.Text.Digit

/-!
# Arguments of a command line

A command line has options, which start with a hyphen, and operands. An option may be shortened as
long as one option alone starts so, may have its value after an equals sign, and after a double
hyphen there are only operands. A negative number is an operand.
-/

set_option autoImplicit false

namespace SelectorCatalog.CommandLine

/-- What an option takes. -/
inductive OptionKind where
  /-- Nothing: it is given or not. -/
  | flag
  | oneValue
  | someValues
  /-- Nothing: it prints a text and ends the program. -/
  | announcement (text : String)
  deriving DecidableEq

/-- An option. -/
structure OptionSpec where
  name : String
  kind : OptionKind
  /-- Whether a value can be used. -/
  accepts : String → Bool := fun _ => true

/-- What operands a command line has. -/
inductive OperandKind where
  | none
  | one
  /-- A command, to which all that follows belongs. -/
  | command
  deriving DecidableEq

/-- The form of a command line. -/
structure Form where
  options : List OptionSpec
  operands : OperandKind
  /-- Options of which only one can be given. -/
  exclusive : List String := []

/-- Why a command line is not followed. -/
inductive Halt where
  /-- It does not have its form. -/
  | usage
  /-- It asks for a text only. -/
  | announced (text : String)
  deriving DecidableEq

/-- An argument by its look. -/
inductive Argument where
  /-- The double hyphen. -/
  | separator
  | operand (s : String)
  /-- An option, if it is known, with the value after its equals sign. -/
  | option (spec : Option OptionSpec) (attached : Option String) (s : String)

namespace Argument

/-- An argument as it was given. -/
def text : Argument → String
  | separator => "--"
  | operand s => s
  | option _ _ s => s

end Argument

/-- Whether a text is a hyphen and a number; a line feed may follow. -/
def isNegativeNumber (s : List Char) : Bool :=
  match s with
  | '-' :: body =>
    let body := if body.getLast? = some '\n' then body.dropLast else body
    let fraction := body.dropWhile Text.isDecimalDigit
    match fraction with
    | [] => !body.isEmpty
    | '.' :: digits => !digits.isEmpty && digits.all Text.isDecimalDigit
    | _ => false
  | _ => false

/-- Name and value of an argument with an equals sign; without one there is no value. -/
def splitValue (s : String) : String × Option String :=
  let cs := s.toList
  match cs.dropWhile (· != '=') with
  | _ :: value => (String.ofList (cs.takeWhile (· != '=')), some (String.ofList value))
  | [] => (s, none)

namespace Form

/-- The option of a name. -/
def option? (f : Form) (name : String) :
    Option OptionSpec := f.options.find? fun o => o.name == name

/-- The options that an argument may mean, each with a value attached to it. -/
def candidates (f : Form) (s : String) : List (OptionSpec × Option String) :=
  match s.toList with
  | '-' :: '-' :: _ =>
    let (name, value) := splitValue s
    (f.options.filter fun o => name.toList.isPrefixOf o.name.toList).map fun o => (o, value)
  | '-' :: c :: rest =>
    f.options.filterMap fun o =>
      -- No option of one letter has a value, so letters after it do not count.
      if o.name.toList == ['-', c] then
        match rest.dropWhile (· == c) with
        | '-' :: _ | '=' :: _ => some (o, some (String.ofList rest))
        | _ => some (o, none)
      else if s.toList.isPrefixOf o.name.toList then some (o, none)
      else none
  | _ => []

/-- An argument that starts with a hyphen and is no option of the form by its whole name. -/
def classifyOther (f : Form) (s : String) : Except Halt Argument :=
  match f.candidates s with
  | [(o, value)] => .ok (.option (some o) value s)
  | _ :: _ :: _ => .error .usage
  | [] =>
    if isNegativeNumber s.toList || s.toList.contains ' ' then .ok (.operand s)
    else .ok (.option none none s)

/-- An argument by its look. -/
def classify (f : Form) (s : String) : Except Halt Argument :=
  match s.toList with
  | '-' :: _ :: _ =>
    match f.option? s with
    | some o => .ok (.option (some o) none s)
    | none =>
      let (name, value) := splitValue s
      match f.option? name, value with
      | some o, some v => .ok (.option (some o) (some v) s)
      | _, _ => f.classifyOther s
  | _ => .ok (.operand s)

/-- Arguments by their looks; after a double hyphen all are operands. -/
def classifyAll (f : Form) : List String → Except Halt (List Argument)
  | [] => .ok []
  | s :: rest =>
    if s == "--" then .ok (.separator :: rest.map .operand)
    else do
      let a ← f.classify s
      return a :: (← f.classifyAll rest)

end Form

/-- What a command line gives. -/
structure Given where
  /-- Options in order, with their values. -/
  options : List (String × List String) := []
  operand : Option String := none
  /-- The command and all that belongs to it. -/
  command : List String := []
  /-- Whether something is left over. -/
  excess : Bool := false
  deriving Inhabited

namespace Given

/-- Adds an option with its values. -/
def add (g : Given) (f : Form) (o : OptionSpec) (values : List String) : Except Halt Given :=
  match o.kind with
  | .announcement text => .error (.announced text)
  | _ =>
    let clashes := f.exclusive.contains o.name && g.options.any fun e =>
      f.exclusive.contains e.1 && e.1 != o.name
    if clashes || !values.all o.accepts then .error .usage
    else .ok { g with options := g.options ++ [(o.name, values)] }

/-- The values of an option: those that it was given last. -/
def values? (g : Given) (name : String) : Option (List String) :=
  (g.options.reverse.find? fun e => e.1 == name).map Prod.snd

/-- The value of an option. -/
def value? (g : Given) (name : String) : Option String := (g.values? name).bind List.head?

/-- Whether an option is given. -/
def has (g : Given) (name : String) : Bool := (g.values? name).isSome

end Given

/-- The operands at the front. -/
def operandsAhead : List Argument → List String
  | .operand s :: rest => s :: operandsAhead rest
  | _ => []

/-- The values of an option that has one attached. -/
def attachedValues (o : OptionSpec) (value : String) : Except Halt (List String) :=
  match o.kind with
  | .oneValue | .someValues => .ok [value]
  | .flag | .announcement _ => .error .usage

/-- The values of an option among the arguments after it. -/
def valuesAhead (o : OptionSpec) (rest : List Argument) : Except Halt (List String) :=
  match o.kind with
  | .flag | .announcement _ => .ok []
  | .oneValue => match operandsAhead rest with
    | s :: _ => .ok [s]
    | [] => .error .usage
  | .someValues => match operandsAhead rest with
    | [] => .error .usage
    | found => .ok found

/-- Whether nothing but separators stands before the next operand. -/
def operandFollows : List Argument → Bool
  | .separator :: rest => operandFollows rest
  | .operand _ :: _ => true
  | _ => false

/-- What the arguments give, read from left to right. The first argument bounds their number. -/
def readArguments (f : Form) : Nat → List Argument → Given → Except Halt Given
  | 0, _, g => .ok g
  | _, [], g => .ok g
  | fuel + 1, a :: rest, g =>
    match a with
    | .option none _ _ => readArguments f fuel rest { g with excess := true }
    | .option (some o) (some value) _ => do
      readArguments f fuel rest (← g.add f o (← attachedValues o value))
    | .option (some o) none _ => do
      let values ← valuesAhead o rest
      readArguments f fuel (rest.drop values.length) (← g.add f o values)
    | .separator =>
      if f.operands = .command && operandFollows rest then
        .ok { g with command := (a :: rest).map Argument.text }
      else if f.operands = .one && g.operand.isNone && operandFollows rest then
        readArguments f fuel rest g
      else readArguments f fuel rest { g with excess := true }
    | .operand s =>
      match f.operands with
      | .command => .ok { g with command := (a :: rest).map Argument.text }
      | .one =>
        if g.operand.isNone then
          let after := rest.dropWhile fun b => b matches .separator
          readArguments f fuel after { g with operand := some s }
        else readArguments f fuel rest { g with excess := true }
      | .none => readArguments f fuel rest { g with excess := true }

/-- What a command line of a form gives. -/
def Form.read (f : Form) (arguments : List String) : Except Halt Given := do
  readArguments f arguments.length (← f.classifyAll arguments) {}

end SelectorCatalog.CommandLine
