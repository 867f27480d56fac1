import SelectorCatalog.Database.Basic
import SelectorCatalog.Text.Blank
import SelectorCatalog.Text.Word

/-!
# Tables of older releases

A database that an older release made is told by the statements that made it: tables with their
columns, and rows. Opening it adds the columns that later releases brought; rows stay as they are.
-/

set_option autoImplicit false

namespace SelectorCatalog.Script

/-- A word, a text or a mark of a statement. -/
inductive Lexeme where
  | word (s : String)
  | text (s : String)
  | mark (c : Char)
  deriving DecidableEq

/-- The content of a text after its first quote, and what follows it. -/
def textBody : List Char → List Char × List Char
  | '\x27' :: '\x27' :: rest => let (s, r) := textBody rest; ('\x27' :: s, r)
  | '\x27' :: rest => ([], rest)
  | c :: rest => let (s, r) := textBody rest; (c :: s, r)
  | [] => ([], [])

/-- The lexemes of a statement; the first argument bounds their number. -/
def lexemes : Nat → List Char → List Lexeme
  | 0, _ => []
  | _, [] => []
  | fuel + 1, c :: rest =>
    if Text.isBlank c then lexemes fuel rest
    else if c == '\x27' then
      let (s, r) := textBody rest
      .text (String.ofList s) :: lexemes fuel r
    else if Text.isWord c then
      .word (String.ofList (c :: rest.takeWhile Text.isWord)) :: lexemes fuel
        (rest.dropWhile Text.isWord)
    else .mark c :: lexemes fuel rest

/-- The items between commas up to the bracket that closes here, and what follows it. -/
def items : Nat → List Lexeme → List Lexeme → List (List Lexeme) × List Lexeme
  | _, item, [] => ([item], [])
  | 0, item, .mark ')' :: rest => ([item], rest)
  | 0, item, .mark ',' :: rest => let (more, r) := items 0 [] rest; (item :: more, r)
  | depth, item, l :: rest =>
    let depth := match l with
      | .mark '(' => depth + 1
      | .mark ')' => depth - 1
      | _ => depth
    items depth (item ++ [l]) rest

/-- Whether a lexeme is a keyword. -/
def isKeyword (word : String) : Lexeme → Bool
  | .word s => s.toUpper == word
  | _ => false

/-- The column that an item of a table definition names; constraints of the table name none. -/
def columnName? : List Lexeme → Option String
  | .word s :: _ =>
    if ["PRIMARY", "UNIQUE", "CHECK", "FOREIGN", "CONSTRAINT"].contains s.toUpper then
      none else some s
  | _ => none

/-- The value of an item of a row. -/
def valueOf : List Lexeme → Option String
  | [.text s] => some s
  | [.word s] => if s.toUpper == "NULL" then none else some s
  | _ => none

/-- The rows of a list of brackets. -/
def rows : Nat → List Lexeme → List (List (Option String))
  | 0, _ => []
  | fuel + 1, ls =>
    match ls with
    | .mark '(' :: rest =>
      let (row, after) := items 0 [] rest
      row.map valueOf :: rows fuel (match after with
        | .mark ',' :: more => more
        | _ => [])
    | _ => []

/-- The columns that opening a database adds where they are missing. -/
def addedColumns : List (String × String) :=
  [("contract", "constructor_args"), ("contract", "error_kind"), ("contract", "error_message"),
    ("contract", "indexed_at"), ("function", "declaring_contract"), ("function", "filename"),
    ("function", "source_code")]

/-- The value of a column in a row. -/
def column (row : List (String × Option String)) (name : String) : Option String :=
  (Assoc.get? name row).getD none

/-- The row of a contract. -/
def contractRow (row : List (String × Option String)) : ContractRow where
  id := (column row "id").getD ""
  address := column row "address"
  name := column row "name"
  compilerVersion := column row "compiler_version"
  sourceFormat := column row "source_format"
  sources := column row "sources"
  settings := column row "settings"
  constructorArgs := column row "constructor_args"
  status := (column row "status").getD ContractStatus.pending.label
  errorKind := column row "error_kind"
  errorMessage := column row "error_message"
  wasIndexed := (column row "indexed_at").isSome

/-- The row of a function. -/
def functionRow (row : List (String × Option String)) : FunctionRow where
  contractId := column row "contract_id"
  selector := column row "selector"
  signature := column row "signature"
  functionName := column row "function_name"
  mutability := column row "mutability"
  visibility := column row "visibility"
  contractName := column row "contract_name"
  declaringContract := column row "declaring_contract"
  filename := column row "filename"
  sourceCode := column row "source_code"

/-- Tables that are being made: their columns, and the database with their rows. -/
structure Tables where
  columns : List (String × List String) := []
  db : Database := {}

namespace Tables

/-- Makes a table. -/
def create (t : Tables) (table : String) (columns : List String) : Tables :=
  let mine := columns.map fun c => (table, c)
  let standard := Database.standardColumns.filter fun c => c.1 == table
  { columns := t.columns ++ [(table, columns)]
    db := { t.db with
      unusedColumns := t.db.unusedColumns ++ mine.filter fun c => !standard.contains c
      lackingColumns := t.db.lackingColumns
        ++ standard.filter fun c => !mine.contains c && !addedColumns.contains c } }

/-- Adds a row to a table. -/
def insert (t : Tables) (table : String) (row : List (String × Option String)) : Tables :=
  if table == "contract" then
    { t with db := { t.db with contracts := t.db.contracts ++ [contractRow row] } }
  else if table == "function" then
    { t with db := { t.db with functions := t.db.functions ++ [functionRow row] } }
  else t

/-- Adds the rows that stand after the word that announces them. -/
def insertAll (t : Tables) (table : String) (names : List String) (ls : List Lexeme) : Tables :=
  (rows ls.length (ls.drop 1)).foldl (fun t row => t.insert table (names.zip row)) t

/-- Follows a statement; one that is neither of a table nor of rows changes nothing. -/
def follow (t : Tables) (statement : String) : Tables :=
  let ls := lexemes statement.length statement.toList
  let optional := ["IF", "NOT", "EXISTS"]
  match ls with
  | first :: second :: rest =>
    if isKeyword "CREATE" first && isKeyword "TABLE" second then
      match rest.dropWhile fun l => optional.any (isKeyword · l) with
      | .word table :: .mark '(' :: body =>
          t.create table ((items 0 [] body).1.filterMap columnName?)
      | _ => t
    else if isKeyword "INSERT" first && isKeyword "INTO" second then
      match rest with
      | .word table :: .mark '(' :: body =>
        let (names, after) := items 0 [] body
        t.insertAll table (names.filterMap columnName?) after
      | .word table :: after => t.insertAll table ((Assoc.get? table t.columns).getD []) after
      | _ => t
    else t
  | _ => t

end Tables

/-- The database that statements made. -/
def database (statements : List String) : Database :=
  (statements.foldl Tables.follow ({} : Tables)).db

end SelectorCatalog.Script
