import SelectorCatalog.Compiler.Cache
import SelectorCatalog.Config.Document
import SelectorCatalog.Corpus.Load
import SelectorCatalog.Database.Commit
import SelectorCatalog.Files.Tree
import SelectorCatalog.Indexing.Run

/-!
# The workspace of a run

A run works on files, databases and a cache of compiler binaries, and reads the environment. A
database is a file: opening one makes the directories above it, and a file that is not a database
cannot be opened.
-/

set_option autoImplicit false

namespace SelectorCatalog

/-- All that a run works on; `σ` is what the compiler remembers from run to run. -/
structure Workspace (σ : Type) where
  files : Tree := {}
  /-- Databases by the location of their file. -/
  databases : List (Location × Database) := []
  /-- How a new database writes values that are no texts. -/
  cast : TextCast := .plain
  environment : List (String × String) := []
  processors : Int := 8
  /-- How the bytes of a settings file are read. -/
  readSettings : List UInt8 → Except Fault Datum := Config.readSettings
  site : Site
  run : Runner σ
  compiler : σ

namespace Workspace

variable {σ : Type}

/-! ## Compiler binaries -/

/-- The directory of binaries where none is given. -/
def homeBinaries (environment : List (String × String)) : Path :=
  (Path.ofText ((Assoc.get? "HOME" environment).getD "/root")).join ⟨.relative, [".solcx"]⟩

/-- The directory of binaries: the environment goes before the settings. -/
def binaryDirectory (w : Workspace σ) (given : Option String) : Path :=
  let named := ((Assoc.get? "SOLCX_BINARY_PATH" w.environment).toList ++ given.toList).find?
    fun s => !s.isEmpty
  (named.map Path.ofText).getD (homeBinaries w.environment)

/-- The names in a directory. -/
def namesIn (t : Tree) (p : Path) : List String :=
  match t.directory? p with
  | none => []
  | some l => (t.below l).filterMap fun x => match x.1 with
    | [name] => some name
    | _ => none

/-- The cache in a directory. -/
def cacheIn (w : Workspace σ) (directory : Path) : Cache := ⟨directory, namesIn w.files directory⟩

/-- The workspace with the binaries of a cache in their directory. -/
def withCache (w : Workspace σ) (c : Cache) : Workspace σ :=
  let fresh := c.names.filter fun name => !(namesIn w.files c.directory).contains name
  { w with files := fresh.foldl (fun t name =>
      (Tree.place (c.directory.join ⟨.relative, [name]⟩) [] t).2) w.files }

/-! ## Databases -/

/-- The path that stands for a database in memory. -/
def inMemory : String := ":memory:"

/-- Keeps a database at a location. -/
def keep (l : Location) (db : Database) (all : List (Location × Database)) :
    List (Location × Database) :=
  all.filter (fun e => e.1 != l) ++ [(l, db)]

/-- Opens the database at a path, or a new one where nothing is. -/
def openDatabase (w : Workspace σ) (path : String) :
    Except (Stop StorageFailure) (Option Location × Database) × Workspace σ :=
  let p := Path.ofText path
  match Tree.makeDirectories p.parent w.files with
  | (.error f, files) => (.error (.fault f), { w with files })
  | (.ok (), files) =>
    let w := { w with files }
    let fresh : Database := { cast := w.cast }
    if p.render == inMemory then (.ok (none, fresh), w)
    else match w.files.locate p with
      | .error _ => (.error (.failure .notADatabase), w)
      | .ok l => match w.databases.lookup l, w.files.at? l with
        | some db, _ => (.ok (some l, db), w)
        | none, none | none, some (.file []) =>
          (.ok (some l, fresh),
            { w with files := w.files.put l (.file []), databases := keep l fresh w.databases })
        | none, some _ => (.error (.failure .notADatabase), w)

/-- The workspace after an opened database has changed. -/
def saveDatabase (w : Workspace σ) (l : Option Location) (db : Database) : Workspace σ :=
  match l with
  | some l => { w with databases := keep l db w.databases }
  | none => w

/-- The database of a file, if the file is there. -/
def databaseAt? (w : Workspace σ) (path : String) : Option Database :=
  match w.files.locate (.ofText path) with
  | .ok l => w.databases.lookup l
  | .error _ => none

/-! ## Indexing -/

/-- Where the binaries of a cache are. -/
def binaryOf (c : Cache) (declared : Option String) : Except (Stop CompileFailure) String :=
  (BinaryStore.resolve c declared).map Path.render

/-- The indexer of a workspace. -/
def indexer (w : Workspace σ) (directory : Path) (budget : Double) (retries : RetryBudget) :
    Indexer σ where
  tools := ⟨binaryOf (w.cacheIn directory), budget, retries⟩
  run := w.run

end Workspace

end SelectorCatalog
