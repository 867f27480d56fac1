import SelectorCatalog.Assoc
import SelectorCatalog.Json.Shape
import SelectorCatalog.Text.Utf8

/-!
# Declaration text

A syntax tree tells where a declaration stands by a range `start:length` of bytes of its source. The
text of the range is shown with U+FFFD where the range cuts a character.
-/

set_option autoImplicit false

namespace SelectorCatalog

/-- Start and length of a range, as its text gives them; `none` if it does not. -/
def readRange? (range : String) : Option (Int × Int) :=
  match (range.toList.splitOn ':').take 2 with
  | [start, length] =>
    match integerOf (String.ofList start), integerOf (String.ofList length) with
    | .ok s, .ok n => some (s, n)
    | _, _ => none
  | _ => none

/-- The text of a range of bytes. -/
def cutBytes (source : String) (start length : Nat) : String :=
  String.ofList (Text.decodeReplacing (((Text.utf8 source.toList).drop start).take length))

/-- The text of a range in one of the sources, empty if there is no such range. -/
def sliceSource (sources : OrderedMap String) (file : String) (range : Value) :
    Except Fault String :=
  if !range.isGiven then .ok ""
  else match sources.get? file with
    | none => .ok ""
    | some source => do
      match readRange? (← range.asText) with
      | some (start, length) =>
        if start < 0 || length ≤ 0 then return ""
        else return cutBytes source start.toNat length.toNat
      | none => return ""

end SelectorCatalog
