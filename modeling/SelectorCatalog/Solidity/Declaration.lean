import SelectorCatalog.Solidity.Lexeme
import SelectorCatalog.Text.Blank
import SelectorCatalog.Text.Word

/-!
# Declarations of a source

A declaration is the word `contract`, `library` or `interface`, blanks and a name. The contract that
counts is the last `contract` declared over all files in order, or the last declaration of any kind
if there is no `contract`.
-/

set_option autoImplicit false

namespace SelectorCatalog.Solidity

/-- The kinds of declaration that are looked for. -/
inductive DeclarationKind where
  | contract
  | library
  | interface
  deriving DecidableEq

/-- The keyword of a kind. -/
def DeclarationKind.word : DeclarationKind → String
  | contract => "contract"
  | library => "library"
  | interface => "interface"

/-- A declaration: its kind and the name declared. -/
structure Declaration where
  kind : DeclarationKind
  name : String
  deriving DecidableEq

/-- Takes a keyword off the front. -/
def takeKeyword? (word : List Char) (s : List Char) : Option (List Char) :=
  if word.isPrefixOf s then some (s.drop word.length) else none

/-- The first characters that a name can have. -/
def startsName (c : Char) : Bool := c.isAlpha || c == '_' || c == '$'

/-- The further characters that a name can have. -/
def continuesName (c : Char) : Bool := Text.isWord c || c == '$'

/-- The declaration of one kind that starts here, and what follows it. -/
def declarationOf? (kind : DeclarationKind) (s : List Char) : Option (Declaration × List Char) := do
  let rest ← takeKeyword? kind.word.toList s
  match rest.dropWhile Text.isBlank with
  | c :: tail =>
    if rest.head?.any Text.isBlank && startsName c then
      let name := c :: tail.takeWhile continuesName
      some (⟨kind, String.ofList name⟩, tail.dropWhile continuesName)
    else none
  | [] => none

/-- The declaration that starts here, and what follows it. -/
def declarationAt? (s : List Char) : Option (Declaration × List Char) :=
  [DeclarationKind.contract, .library, .interface].findSome? fun k => declarationOf? k s

/-- The declarations from here on; `insideWord` tells that the character before belongs to a word,
and a keyword counts only at the start of a word. The first argument bounds the number of steps. -/
def scanDeclarations : Nat → Bool → List Char → List Declaration
  | 0, _, _ => []
  | _ + 1, _, [] => []
  | fuel + 1, insideWord, c :: rest =>
    match if insideWord then none else declarationAt? (c :: rest) with
    | some (d, after) =>
      d :: scanDeclarations fuel (d.name.toList.getLast?.any Text.isWord) after
    | none => scanDeclarations fuel (Text.isWord c) rest

/-- The declarations in code without comments and literals. -/
def declarationsInCode (code : List Char) : List Declaration :=
  scanDeclarations code.length false code

/-- The declarations of a source file. -/
def declarations (content : String) : List Declaration :=
  declarationsInCode (codeOnly content.toList)

/-- The declarations of all files in order. -/
def declaredIn (contents : List String) : List Declaration := contents.flatMap declarations

/-- The name that counts among declarations. -/
def primaryOf? (found : List Declaration) : Option String :=
  match (found.filter fun d => d.kind = .contract).getLast? with
  | some d => some d.name
  | none => found.getLast?.map Declaration.name

/-- The part of a qualified name after its last colon. -/
def unqualified (name : String) : String :=
  String.ofList (name.toList.reverse.takeWhile (· != ':')).reverse

end SelectorCatalog.Solidity
