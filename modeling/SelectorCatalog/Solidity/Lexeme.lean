/-!
# Comments and literals of a source

Declarations are looked for in the code alone, so comments and quoted literals are blanked out
first, in one pass from left to right: whichever starts first wins, so a quote in a comment opens no
literal and two slashes in a literal open no comment. A block comment or a literal without its end
is taken as code.
-/

set_option autoImplicit false

namespace SelectorCatalog.Solidity

/-- What follows a line comment: its line feed and the rest. -/
def afterLine (s : List Char) : List Char := s.dropWhile (· != '\n')

/-- What follows a block comment whose body starts here. -/
def afterBlock? : List Char → Option (List Char)
  | '*' :: '/' :: rest => some rest
  | _ :: rest => afterBlock? rest
  | [] => none

/-- What follows a literal whose body starts here: escapes, and characters other than the quote and
the line feed, up to the quote. -/
def afterLiteral? (quote : Char) : List Char → Option (List Char)
  | [] => none
  | ['\\'] => none
  | '\\' :: _ :: rest => afterLiteral? quote rest
  | c :: rest => if c = quote then some rest else if c = '\n' then none
      else afterLiteral? quote rest

/-- What follows the comment or literal that starts here, if one does. -/
def afterLexeme? : List Char → Option (List Char)
  | '/' :: '/' :: rest => some (afterLine rest)
  | '/' :: '*' :: rest => afterBlock? rest
  | '"' :: rest => afterLiteral? '"' rest
  | '\x27' :: rest => afterLiteral? '\x27' rest
  | _ => none

theorem afterBlock?_length {s r : List Char} (h : afterBlock? s = some r) :
    r.length < s.length := by
  fun_induction afterBlock? s with
  | case1 rest =>
    cases h
    simp only [List.length_cons]
    omega
  | case2 c rest _ ih => have := ih h; simp; omega
  | case3 => simp at h

theorem afterLiteral?_length {quote : Char} {s r : List Char} (h : afterLiteral? quote s = some r) :
    r.length < s.length := by
  fun_induction afterLiteral? quote s with
  | case1 => simp at h
  | case2 => simp at h
  | case3 c rest ih => have := ih h; simp; omega
  | case4 rest => simp_all
  | case5 => simp at h
  | case6 c rest _ _ _ _ ih => have := ih h; simp; omega

theorem afterLexeme?_length {s r : List Char} (h : afterLexeme? s = some r) :
    r.length < s.length := by
  unfold afterLexeme? at h
  split at h
  · next rest =>
    have hle : (afterLine rest).length ≤ rest.length :=
      (List.dropWhile_suffix (· != '\n')).length_le
    cases h
    simp only [List.length_cons]
    omega
  · next rest => have := afterBlock?_length h; simp only [List.length_cons]; omega
  · next rest => have := afterLiteral?_length h; simp only [List.length_cons]; omega
  · next rest => have := afterLiteral?_length h; simp only [List.length_cons]; omega
  · simp at h

/-- The source with one space in place of every comment and literal. -/
def codeOnly (s : List Char) : List Char :=
  match _h : afterLexeme? s with
  | some rest => ' ' :: codeOnly rest
  | none =>
    match s with
    | [] => []
    | c :: rest => c :: codeOnly rest
  termination_by s.length
  decreasing_by
    · exact afterLexeme?_length (by assumption)
    · simp

theorem codeOnly_of_lexeme {s rest : List Char} (h : afterLexeme? s = some rest) :
    codeOnly s = ' ' :: codeOnly rest := by
  rw [codeOnly]
  split
  · next found => cases h.symm.trans found; rfl
  · next none_found => cases h.symm.trans none_found

theorem codeOnly_cons {c : Char} {rest : List Char} (h : afterLexeme? (c :: rest) = none) :
    codeOnly (c :: rest) = c :: codeOnly rest := by
  rw [codeOnly]
  split
  · next found => cases h.symm.trans found
  · rfl

@[simp] theorem codeOnly_nil : codeOnly [] = [] := by
  rw [codeOnly]
  rfl

end SelectorCatalog.Solidity
