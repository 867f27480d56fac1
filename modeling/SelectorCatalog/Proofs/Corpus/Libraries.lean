import SelectorCatalog.Corpus.Metadata
import SelectorCatalog.Proofs.Pairs
import SelectorCatalog.Proofs.Text.Parts
import SelectorCatalog.Proofs.Text.Trimmed

/-!
# Library addresses as text

The library addresses of a contract come as items `name:address` between semicolons. What is read
from an item has a normal form (`Metadata.IsLibrary`): the name is trimmed and holds neither mark,
the address is trimmed, starts with `0x` and holds no semicolon. An item in this form is read as
what it was written from, so the addresses of any text, written out in their order, are read as the
same addresses in the same order (`Metadata.libraries_normalForm`).
-/

set_option autoImplicit false

namespace SelectorCatalog.Metadata

/-! ## One item -/

/-- An item is read as what stands before its first colon, and what stands after it. -/
theorem libraryItem?_parted {name : List Char} (whole : ':' ∉ name) (address : List Char) :
    libraryItem? (name ++ ':' :: address) =
      some (Text.trim (String.ofList name), withHexMark (Text.trim (String.ofList address))) := by
  have before : ∀ c ∈ name, (c != ':') = true :=
    fun c mem => bne_iff_ne.2 fun same => whole (same ▸ mem)
  have rest : (name ++ ':' :: address).dropWhile (· != ':') = ':' :: address := by
    rw [List.dropWhile_append_of_pos before]
    rfl
  have first : (name ++ ':' :: address).takeWhile (· != ':') = name := by
    rw [List.takeWhile_append_of_pos before]
    simp
  rw [libraryItem?, rest, first]

/-- An item without a colon is passed over. -/
theorem libraryItem?_eq_none {item : List Char} (plain : ':' ∉ item) :
    libraryItem? item = none := by
  have all : item.dropWhile (· != ':') = [] :=
    List.dropWhile_eq_nil_iff.2 fun c mem => bne_iff_ne.2 fun same => plain (same ▸ mem)
  rw [libraryItem?, all]

/-- **What an item is read as**: its name and its address, parted by its first colon. -/
theorem libraryItem?_eq_some_iff {item : List Char} {e : String × String} :
    libraryItem? item = some e ↔ ∃ name address, item = name ++ ':' :: address ∧ ':' ∉ name ∧
      e = (Text.trim (String.ofList name), withHexMark (Text.trim (String.ofList address))) := by
  constructor
  · intro read
    by_cases colon : ':' ∈ item
    · obtain ⟨name, address, rfl, whole⟩ := List.eq_append_cons_of_mem colon
      rw [libraryItem?_parted whole] at read
      exact ⟨name, address, rfl, whole, (Option.some.inj read).symm⟩
    · rw [libraryItem?_eq_none colon] at read
      cases read
  · rintro ⟨name, address, rfl, whole, rfl⟩
    exact libraryItem?_parted whole address

/-! ## The mark of an address -/

theorem toList_hexMark : "0x".toList = ['0', 'x'] := rfl

theorem marked_withHexMark (address : String) : "0x".toList <+: (withHexMark address).toList := by
  unfold withHexMark
  split
  · rename_i marked
    exact List.isPrefixOf_iff_prefix.1 marked
  · rw [String.toList_append]
    exact List.prefix_append _ _

theorem withHexMark_eq_self {address : String} (marked : "0x".toList <+: address.toList) :
    withHexMark address = address := if_pos (List.isPrefixOf_iff_prefix.2 marked)

theorem mem_withHexMark {address : String} {c : Char} (mem : c ∈ (withHexMark address).toList) :
    c ∈ "0x".toList ∨ c ∈ address.toList := by
  unfold withHexMark at mem
  split at mem
  · exact .inr mem
  · rwa [String.toList_append, List.mem_append] at mem

/-- The mark is no blank, so an address stays trimmed with it. -/
theorem isTrimmed_withHexMark {address : String} (trimmed : Text.IsTrimmed address.toList) :
    Text.IsTrimmed (withHexMark address).toList := by
  unfold withHexMark
  split
  · exact trimmed
  · have zero : Text.isBlank '0' = false := by decide
    have letter : Text.isBlank 'x' = false := by decide
    have mark : Text.IsTrimmed "0x".toList :=
      Text.isTrimmed_of_all (by simp [toList_hexMark, zero, letter])
    rw [String.toList_append]
    exact mark.append trimmed

/-! ## Items that have been read -/

/-- A library as it stands in the map. -/
structure IsLibrary (e : String × String) : Prop where
  name_trimmed : Text.IsTrimmed e.1.toList
  name_whole : ':' ∉ e.1.toList ∧ ';' ∉ e.1.toList
  address_trimmed : Text.IsTrimmed e.2.toList
  address_marked : "0x".toList <+: e.2.toList
  address_whole : ';' ∉ e.2.toList

/-- **What is read from an item has the normal form.** -/
theorem isLibrary_of_libraryItem? {item : List Char} {e : String × String} (single : ';' ∉ item)
    (read : libraryItem? item = some e) : IsLibrary e := by
  obtain ⟨name, address, rfl, whole, made⟩ := libraryItem?_eq_some_iff.1 read
  have first : e.1 = Text.trim (String.ofList name) := by rw [made]
  have second : e.2 = withHexMark (Text.trim (String.ofList address)) := by rw [made]
  rw [List.mem_append, List.mem_cons, not_or, not_or] at single
  have in_name : ∀ c ∉ name, c ∉ e.1.toList := fun c absent mem => by
    rw [first] at mem
    exact absent (by simpa using Text.mem_of_mem_trim mem)
  have in_address : ';' ∉ e.2.toList := fun mem => by
    rw [second] at mem
    rcases mem_withHexMark mem with mark | inside
    · simp [toList_hexMark] at mark
    · exact single.2.2 (by simpa using Text.mem_of_mem_trim inside)
  exact {
    name_trimmed := first ▸ Text.isTrimmed_trim _
    name_whole := ⟨in_name _ whole, in_name _ single.1⟩
    address_trimmed := second ▸ isTrimmed_withHexMark (Text.isTrimmed_trim _)
    address_marked := second ▸ marked_withHexMark _
    address_whole := in_address }

theorem isLibrary_of_mem {s : String} {e : String × String} (mem : e ∈ libraryItems s) :
    IsLibrary e := by
  obtain ⟨item, here, read⟩ := List.mem_filterMap.1 mem
  exact isLibrary_of_libraryItem? (Text.not_mem_of_mem_splitOn here) read

/-- A library as an item. -/
def writeLibrary (e : String × String) : String := e.1 ++ ":" ++ e.2

theorem toList_writeLibrary (e : String × String) :
    (writeLibrary e).toList = e.1.toList ++ ':' :: e.2.toList := by
  simp [writeLibrary]

/-- **An item in normal form is read as what it was written from.** -/
theorem IsLibrary.libraryItem?_writeLibrary {e : String × String} (normal : IsLibrary e) :
    libraryItem? (writeLibrary e).toList = some e := by
  rw [toList_writeLibrary, libraryItem?_parted normal.name_whole.1, String.ofList_toList,
    String.ofList_toList, Text.trim_eq_self normal.name_trimmed,
    Text.trim_eq_self normal.address_trimmed, withHexMark_eq_self normal.address_marked]

theorem IsLibrary.single {e : String × String} (normal : IsLibrary e) :
    ';' ∉ (writeLibrary e).toList := by
  simp [toList_writeLibrary, normal.name_whole.2, normal.address_whole]

/-! ## All items -/

/-- Libraries as a text of items between semicolons, in the order of the map. -/
def writeLibraries (libraries : OrderedMap String) : String :=
  ";".intercalate (libraries.entries.map writeLibrary)

/-- Written libraries in normal form are read again. -/
theorem libraryItems_joined {entries : List (String × String)} (some_left : entries ≠ [])
    (normal : ∀ e ∈ entries, IsLibrary e) :
    libraryItems (";".intercalate (entries.map writeLibrary)) = entries := by
  have items : (";".intercalate (entries.map writeLibrary)).toList.splitOn ';' =
      entries.map fun e => (writeLibrary e).toList := by
    rw [String.toList_intercalate, List.map_map]
    refine List.splitOn_intercalate ';' (fun item mem => ?_) (by simpa using some_left)
    obtain ⟨e, here, rfl⟩ := List.mem_map.1 mem
    exact (normal e here).single
  rw [libraryItems, items, List.filterMap_map]
  calc entries.filterMap (libraryItem? ∘ fun e => (writeLibrary e).toList)
    _ = entries.filterMap some :=
      List.filterMap_congr fun e mem => (normal e mem).libraryItem?_writeLibrary
    _ = entries := List.filterMap_some

theorem libraries_text (s : String) : libraries (.text s) = librariesOf s := by
  by_cases empty : s = ""
  · subst empty
    decide
  · have given : Value.isGiven (.text s) = true := by simp [Value.isGiven, empty]
    rw [libraries, if_pos given]
    rfl

/-- Libraries in normal form are read back from their text. -/
theorem libraries_writeLibraries {m : OrderedMap String} (normal : ∀ e ∈ m.entries, IsLibrary e) :
    libraries (.text (writeLibraries m)) = m := by
  rw [libraries_text, librariesOf]
  by_cases none_left : m.entries = []
  · have no_items : writeLibraries m = "" := by rw [writeLibraries, none_left]; rfl
    apply OrderedMap.ext'
    rw [no_items, none_left]
    rfl
  · rw [writeLibraries, libraryItems_joined none_left normal, OrderedMap.ofList_entries]

/-- **Library addresses have a normal form.** The addresses that a text gives, written out in their
order, are read as the same addresses in the same order. Every one of them starts with `0x`, under a
trimmed name without colon and semicolon. The names stand where they first occur among the items,
each with the address of its last item. -/
theorem libraries_normalForm (s : String) :
    libraries (.text (writeLibraries (libraries (.text s)))) = libraries (.text s) ∧
    (∀ e ∈ (libraries (.text s)).entries, "0x".toList <+: e.2.toList ∧ Text.trim e.1 = e.1 ∧
      ':' ∉ e.1.toList ∧ ';' ∉ e.1.toList) ∧
    Assoc.names (libraries (.text s)).entries = (Assoc.names (libraryItems s)).eraseDups ∧
    ∀ name, (libraries (.text s)).get? name = Assoc.get? name (libraryItems s).reverse := by
  rw [libraries_text s]
  have normal : ∀ e ∈ (librariesOf s).entries, IsLibrary e := fun e mem =>
    isLibrary_of_mem (OrderedMap.mem_of_mem_ofList mem)
  refine ⟨libraries_writeLibraries normal, fun e mem => ?_, OrderedMap.names_ofList _,
    OrderedMap.get?_ofList _⟩
  have library := normal e mem
  exact ⟨library.address_marked, Text.trim_eq_self library.name_trimmed, library.name_whole⟩

/-- Blanks, an item without a colon, an address without its mark and with a colon, and a name given
twice. -/
example : (libraries (.text " A : 0x1 ;x;B:2:3;A:4")).entries = [("A", "0x4"), ("B", "0x2:3")] := by
  decide

end SelectorCatalog.Metadata
