import SelectorCatalog.CommandLine.Argument
import SelectorCatalog.Fault

/-!
# Commands

The program fetches compilers, loads corpora, indexes functions, exports sources and prints
statistics. `Request.read` turns a command line into one of these commands with its options.
-/

set_option autoImplicit false

namespace SelectorCatalog.CommandLine

/-- What a command does, with its options. -/
inductive Command where
  | download (releases : Option (List String))
  | load (answers folders : Option String) (chunk : Option Int) (ignoreErrors : Bool)
  | index (chunk workers : Option Int) (budget : Option Double) (reindex retryFailed : Bool)
      (limit : Option Int) (ignoreErrors : Bool)
  | exportSource (id output : String)
  | statistics

/-- A command with the options of the program. -/
structure Request where
  databasePath : Option String := none
  binaryDirectory : Option String := none
  settingsFile : Option String := none
  logFile : Option String := none
  command : Command

/-- The text that tells the version. -/
def versionText : String := "contract-indexer 1.0.0\n"

/-- Whether a value is a whole number. -/
def isInteger (s : String) : Bool := (integerOf s).isOk

/-- Whether a value is a number. -/
def isNumber (s : String) : Bool := (doubleOf s).isOk

/-- The options that every form has. -/
def helpOptions : List OptionSpec :=
  [⟨"-h", .announcement "", fun _ => true⟩, ⟨"--help", .announcement "", fun _ => true⟩]

/-- An option with a value. -/
def valued (name : String) : OptionSpec := ⟨name, .oneValue, fun _ => true⟩

/-- An option with a whole number. -/
def counted (name : String) : OptionSpec := ⟨name, .oneValue, isInteger⟩

/-- An option without value. -/
def flag (name : String) : OptionSpec := ⟨name, .flag, fun _ => true⟩

/-- The form of the whole command line. -/
def mainForm : Form where
  options := helpOptions ++ [⟨"--version", .announcement versionText, fun _ => true⟩,
    valued "--duckdb-path", valued "--solc-dir", valued "--config",
    ⟨"--log-level", .oneValue, ["DEBUG", "INFO", "WARNING", "ERROR"].contains⟩,
    valued "--log-file"]
  operands := .command

/-- The form of the command that fetches compilers. -/
def downloadForm : Form where
  options := helpOptions ++ [⟨"--versions", .someValues, fun _ => true⟩]
  operands := .none

/-- The form of the command that loads corpora. -/
def loadForm : Form where
  options := helpOptions ++ [valued "--etherscan-contracts-root", valued "--plain-contracts-root",
    counted "--chunk-size", flag "--ignore-errors"]
  operands := .none

/-- The form of the command that indexes functions. -/
def indexForm : Form where
  options := helpOptions ++ [counted "--chunk-size", counted "--workers",
    ⟨"--timeout", .oneValue, isNumber⟩, flag "--reindex", flag "--retry-failed", counted "--limit",
    flag "--ignore-errors"]
  operands := .none
  exclusive := ["--reindex", "--retry-failed"]

/-- The form of the command that exports sources. -/
def exportForm : Form where
  options := helpOptions ++ [valued "--output"]
  operands := .one

/-- The form of the command that prints statistics. -/
def statisticsForm : Form where
  options := helpOptions
  operands := .none

/-- The whole number of an option. -/
def integerOption (g : Given) (name : String) : Option Int :=
  (g.value? name).bind fun s => (integerOf s).toOption

/-- The number of an option. -/
def numberOption (g : Given) (name : String) : Option Double :=
  (g.value? name).bind fun s => (doubleOf s).toOption

/-- What the arguments of a command give, with nothing left over. -/
def readAll (f : Form) (arguments : List String) : Except Halt Given := do
  let g ← f.read arguments
  if g.excess || f.operands = .one && g.operand.isNone then throw .usage
  return g

/-- The command of a name and its arguments. -/
def readCommand (name : String) (arguments : List String) : Except Halt Command :=
  match name with
  | "download-solc" => do
    return .download ((← readAll downloadForm arguments).values? "--versions")
  | "pre-process" => do
    let g ← readAll loadForm arguments
    return .load (g.value? "--etherscan-contracts-root") (g.value? "--plain-contracts-root")
      (integerOption g "--chunk-size") (g.has "--ignore-errors")
  | "index-functions" => do
    let g ← readAll indexForm arguments
    return .index (integerOption g "--chunk-size") (integerOption g "--workers")
      (numberOption g "--timeout") (g.has "--reindex") (g.has "--retry-failed")
      (integerOption g "--limit") (g.has "--ignore-errors")
  | "export-source" => do
    let g ← readAll exportForm arguments
    return .exportSource (g.operand.getD "") ((g.value? "--output").getD ".")
  | "stats" => do
    let _ ← readAll statisticsForm arguments
    return .statistics
  | _ => .error .usage

/-- The request of a command line. -/
def Request.read (arguments : List String) : Except Halt Request := do
  let g ← mainForm.read arguments
  match g.command with
  | [] => throw .usage
  | name :: rest =>
    let command ← readCommand name rest
    if g.excess then throw .usage
    return {
      databasePath := g.value? "--duckdb-path"
      binaryDirectory := g.value? "--solc-dir"
      settingsFile := g.value? "--config"
      logFile := g.value? "--log-file"
      command }

end SelectorCatalog.CommandLine
