import SelectorCatalog.Text.Hex
import SelectorCatalog.Text.Printable

/-!
# Quoted text

Messages show a text between quotes so that its ends and its invisible characters can be seen. The
quotes are single, unless the text holds a single quote and no double quote.
-/

set_option autoImplicit false

namespace SelectorCatalog.Text

/-- The single quote. -/
def singleQuote : Char := '\x27'

/-- One character of a quoted text, between quotes `quote`. -/
def quotedChar (quote c : Char) : List Char :=
  if c == quote || c == '\\' then ['\\', c]
  else if c == '\n' then ['\\', 'n']
  else if c == '\r' then ['\\', 'r']
  else if c == '\t' then ['\\', 't']
  else if isPrintable c then [c]
  else if c.toNat < 0x100 then '\\' :: 'x' :: hex 2 c.toNat
  else if c.toNat < 0x10000 then '\\' :: 'u' :: hex 4 c.toNat
  else '\\' :: 'U' :: hex 8 c.toNat

/-- The quote that a quoted text stands between. -/
def quoteFor (s : List Char) : Char :=
  if s.contains singleQuote && !s.contains '"' then '"' else singleQuote

/-- The text between quotes, with escapes. -/
def quoted (s : String) : String :=
  let q := quoteFor s.toList
  String.ofList (q :: s.toList.flatMap (quotedChar q) ++ [q])

end SelectorCatalog.Text
