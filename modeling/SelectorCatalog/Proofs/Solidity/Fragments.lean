import SelectorCatalog.Corpus.Metadata

/-!
# Comments and literals do not count

A source file is a sequence of fragments: code, comments and quoted literals, each of them as far as
it goes. Declarations are looked for in the file with one space in place of every comment and
literal (`SourceFile.codeOnly_content`), whatever quotes, stars and slashes these hold. So the
declarations, and the contract that counts among them, are those of the file blanked out
(`primaryName_blanked`).
-/

set_option autoImplicit false

namespace SelectorCatalog.Solidity

/-! ## Fragments -/

/-- Characters that neither open a comment nor a literal. -/
def isCode (c : Char) : Bool := c != '/' && c != '"' && c != '\x27'

/-- The quotes that literals stand in. -/
inductive Quote where
  | double
  | single

/-- The character of a quote. -/
def Quote.mark : Quote → Char
  | double => '"'
  | single => '\x27'

/-- A part of a literal: an escape of any character, or a character that stands for itself. -/
inductive LiteralPart (quote : Quote) where
  | escape (c : Char)
  | plain (c : Char) (inner : c ≠ '\\' ∧ c ≠ quote.mark ∧ c ≠ '\n')

/-- The part as it is written. -/
def LiteralPart.text {quote : Quote} : LiteralPart quote → List Char
  | escape c => ['\\', c]
  | plain c _ => [c]

/-- A fragment of a source file. -/
inductive Fragment where
  | code (s : List Char) (plain : ∀ c ∈ s, isCode c = true)
  | lineComment (body : List Char) (one_line : '\n' ∉ body)
  | blockComment (body : List Char) (unclosed : ¬['*', '/'] <:+: body)
  | literal (quote : Quote) (body : List (LiteralPart quote))

namespace Fragment

/-- The fragment as it is written. -/
def text : Fragment → List Char
  | code s _ => s
  | lineComment body _ => '/' :: '/' :: body
  | blockComment body _ => '/' :: '*' :: body ++ ['*', '/']
  | literal quote body => quote.mark :: body.flatMap LiteralPart.text ++ [quote.mark]

/-- The fragment, or one space if it is a comment or a literal. -/
def blanked : Fragment → List Char
  | code s _ => s
  | _ => [' ']

/-- A line comment goes up to the line feed or the end; other fragments end by themselves. -/
def EndsBefore (after : List Char) : Fragment → Prop
  | lineComment _ _ => ∀ c, after.head? = some c → c = '\n'
  | _ => True

end Fragment

/-- Each fragment ends where the next ones start. -/
def FollowEachOther : List Fragment → Prop
  | [] => True
  | f :: rest => f.EndsBefore (rest.flatMap Fragment.text) ∧ FollowEachOther rest

/-- A source file as a sequence of fragments. -/
structure SourceFile where
  fragments : List Fragment
  follow : FollowEachOther fragments

namespace SourceFile

/-- The content of the file. -/
def content (file : SourceFile) : String := String.ofList (file.fragments.flatMap Fragment.text)

/-- The content with one space in place of every comment and literal. -/
def blanked (file : SourceFile) : String := String.ofList (file.fragments.flatMap Fragment.blanked)

end SourceFile

/-! ## Where comments and literals end -/

theorem afterLine_append {body after : List Char} (one_line : '\n' ∉ body)
    (ends : ∀ c, after.head? = some c → c = '\n') : afterLine (body ++ after) = after := by
  have inside : ∀ c ∈ body, (c != '\n') = true := by
    intro c mem
    simp only [bne_iff_ne]
    rintro rfl
    exact one_line mem
  rw [afterLine, List.dropWhile_append_of_pos inside]
  cases after with
  | nil => rfl
  | cons c rest => simp [ends c rfl]

/-- The first end mark closes the comment: none stands in the body, and a star at its end is not
part of one. -/
theorem afterBlock?_append {body : List Char} (unclosed : ¬['*', '/'] <:+: body)
    (after : List Char) :
    afterBlock? (body ++ '*' :: '/' :: after) = some after := by
  induction body with
  | nil => rfl
  | cons c body ih =>
    have later : ¬['*', '/'] <:+: body := fun inside => unclosed (List.infix_cons inside)
    have not_here : ∀ rest, c = '*' → body ++ '*' :: '/' :: after = '/' :: rest → False := by
      intro rest star slash
      cases body with
      | nil => simp at slash
      | cons d body =>
        obtain ⟨rfl, -⟩ := List.cons.inj slash
        exact unclosed ⟨[], body, by simp [star]⟩
    rw [List.cons_append, afterBlock?.eq_2 _ _ not_here]
    exact ih later

theorem afterLiteral?_part {quote : Quote} (part : LiteralPart quote) (after : List Char) :
    afterLiteral? quote.mark (part.text ++ after) = afterLiteral? quote.mark after := by
  cases part with
  | escape c => rfl
  | plain c inner =>
    obtain ⟨no_escape, no_quote, no_break⟩ := inner
    rw [LiteralPart.text, List.singleton_append, afterLiteral?]
    · rw [if_neg no_quote, if_neg no_break]
    · exact fun h _ => no_escape h
    · exact fun _ _ h _ => no_escape h

theorem afterLiteral?_append {quote : Quote} (body : List (LiteralPart quote)) (after : List Char) :
    afterLiteral? quote.mark (body.flatMap LiteralPart.text ++ quote.mark :: after) =
      some after := by
  induction body with
  | nil => cases quote <;> simp [Quote.mark, afterLiteral?]
  | cons part body ih =>
    rw [List.flatMap_cons, List.append_assoc, afterLiteral?_part]
    exact ih

/-! ## Blanking out -/

theorem afterLexeme?_of_isCode {c : Char} (h : isCode c = true) (rest : List Char) :
    afterLexeme? (c :: rest) = none := by
  simp only [isCode, Bool.and_eq_true, bne_iff_ne] at h
  obtain ⟨⟨no_slash, no_double⟩, no_single⟩ := h
  unfold afterLexeme?
  split <;> simp_all

theorem codeOnly_append {code : List Char} (plain : ∀ c ∈ code, isCode c = true)
    (after : List Char) :
    codeOnly (code ++ after) = code ++ codeOnly after := by
  induction code with
  | nil => rfl
  | cons c code ih =>
    have ⟨first, others⟩ := List.forall_mem_cons.1 plain
    rw [List.cons_append, codeOnly_cons (afterLexeme?_of_isCode first _), ih others,
      List.cons_append]

/-- **A comment or literal is left out as far as it goes**, and nothing else is. -/
theorem Fragment.codeOnly_text (f : Fragment) {after : List Char} (ends : f.EndsBefore after) :
    codeOnly (f.text ++ after) = f.blanked ++ codeOnly after := by
  cases f with
  | code s plain => exact codeOnly_append plain after
  | lineComment body one_line =>
    apply codeOnly_of_lexeme
    show some (afterLine (body ++ after)) = some after
    rw [afterLine_append one_line ends]
  | blockComment body unclosed =>
    apply codeOnly_of_lexeme
    show afterBlock? (body ++ ['*', '/'] ++ after) = some after
    rw [List.append_assoc]
    exact afterBlock?_append unclosed after
  | literal quote body =>
    apply codeOnly_of_lexeme
    have closed := afterLiteral?_append body after
    have written : (literal quote body).text ++ after =
        quote.mark :: (body.flatMap LiteralPart.text ++ quote.mark :: after) := by
      simp [text]
    rw [written]
    cases quote <;> exact closed

theorem codeOnly_fragments {fragments : List Fragment} (follow : FollowEachOther fragments) :
    codeOnly (fragments.flatMap Fragment.text) = fragments.flatMap Fragment.blanked := by
  induction fragments with
  | nil => exact codeOnly_nil
  | cons f rest ih =>
    obtain ⟨first, others⟩ := follow
    rw [List.flatMap_cons, f.codeOnly_text first, ih others, List.flatMap_cons]

theorem Fragment.isCode_of_mem_blanked {f : Fragment} {c : Char} (mem : c ∈ f.blanked) :
    isCode c = true := by
  cases f with
  | code s plain => exact plain c mem
  | _ =>
    rw [List.mem_singleton.1 mem]
    decide

namespace SourceFile

variable (file : SourceFile)

/-- **What is left of a file** is the file with one space in place of every comment and literal. -/
theorem codeOnly_content : codeOnly file.content.toList = file.blanked.toList := by
  rw [content, blanked, String.toList_ofList, String.toList_ofList]
  exact codeOnly_fragments file.follow

/-- Nothing more is left out of a file that is blanked out. -/
theorem codeOnly_blanked : codeOnly file.blanked.toList = file.blanked.toList := by
  have plain : ∀ c ∈ file.blanked.toList, isCode c = true := by
    intro c mem
    rw [blanked, String.toList_ofList] at mem
    obtain ⟨f, -, inside⟩ := List.mem_flatMap.1 mem
    exact f.isCode_of_mem_blanked inside
  have whole := codeOnly_append plain []
  rwa [codeOnly_nil, List.append_nil] at whole

theorem declarations_content : declarations file.content = declarations file.blanked := by
  rw [declarations, declarations, file.codeOnly_content, file.codeOnly_blanked]

end SourceFile

/-- **Comments and literals have no influence on the contract that counts.** What is looked at is
each file with one space in place of every comment and literal, and these files have the same
declarations and give the same name, whether or not one is declared. -/
theorem primaryName_blanked (files : List SourceFile) (declared : Option String) :
    files.map (fun file => codeOnly file.content.toList) =
      files.map (fun file => file.blanked.toList) ∧
      declaredIn (files.map SourceFile.content) = declaredIn (files.map SourceFile.blanked) ∧
      Metadata.primaryName (files.map SourceFile.content) declared =
        Metadata.primaryName (files.map SourceFile.blanked) declared := by
  have same : declaredIn (files.map SourceFile.content) =
      declaredIn (files.map SourceFile.blanked) := by
    rw [declaredIn, declaredIn, List.flatMap_map, List.flatMap_map]
    exact congrArg (fun f => files.flatMap f) (funext SourceFile.declarations_content)
  refine ⟨List.map_congr_left fun file _ => file.codeOnly_content, same, ?_⟩
  cases declared with
  | some name => rfl
  | none => rw [Metadata.primaryName, Metadata.primaryName, same]

/-- A contract between comments that declare others, and a literal with the marks of a comment. -/
def SourceFile.vault : SourceFile where
  fragments := [.lineComment " contract Old".toList (by decide),
    .code "\ncontract Vault ".toList (by simp [isCode]),
    .blockComment " is Base\n contract \"Other\" ".toList (by simp [List.infix_cons_iff]),
    .code "\x7b string s = ".toList (by simp [isCode]),
    .literal .double [.escape '"', .plain '/' (by decide), .plain '*' (by decide)],
    .code "; \x7d".toList (by simp [isCode])]
  follow := by simp [FollowEachOther, Fragment.EndsBefore, Fragment.text]

example : SourceFile.vault.blanked = " \ncontract Vault  \x7b string s =  ; \x7d" := rfl

example : Metadata.primaryName [SourceFile.vault.content] none = .ok "Vault" := by cbv

end SelectorCatalog.Solidity
