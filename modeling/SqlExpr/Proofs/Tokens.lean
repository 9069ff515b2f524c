import SqlExpr.Proofs.PlainText

/-!
A reference lexer of SQL text. Two dashes outside quotes start a comment, which runs to the end of its
line; a quoted token is read with its content, in which a doubled quote stands for a quote.
-/

namespace SqlExpr

open Lexeme

inductive SqlToken where
  | plain (c : Char)
  | quoted (quote : Char) (content : List Char)
  | comment
  /-- A quote that nothing closes. -/
  | unclosed (quote : Char)
  deriving DecidableEq, Repr

theorem Text.length_lt_of_readQuoted {quote : Char} {text content after : List Char}
    (found : readQuoted quote text = some (content, after)) : after.length < text.length := by
  fun_induction readQuoted quote text generalizing content after with
  | case1 => cases found
  | case2 =>
    cases found
    simp
  | case3 => cases found
  | case4 rest ih =>
    simp only [Option.map_eq_some_iff, Prod.mk.injEq, Prod.exists] at found
    obtain ⟨_, behind, inner, _, rfl⟩ := found
    have shorter := ih inner
    simp only [List.length_cons]
    omega
  | case5 c d rest =>
    cases found
    simp
  | case6 c d rest _ ih =>
    simp only [Option.map_eq_some_iff, Prod.mk.injEq, Prod.exists] at found
    obtain ⟨_, behind, inner, _, rfl⟩ := found
    have shorter := ih inner
    simp only [List.length_cons] at shorter ⊢
    omega

def lex : List Char → List SqlToken
  | [] => []
  | '-' :: '-' :: rest => .comment :: lex (rest.dropWhile (· != '\n'))
  | c :: rest =>
    if isQuote c then
      match _found : Text.readQuoted c rest with
      | some (content, after) => .quoted c content :: lex after
      | none => [.unclosed c]
    else .plain c :: lex rest
termination_by text => text.length
decreasing_by
  · have bound := (List.dropWhile_suffix (l := rest) (· != '\n')).length_le
    simp only [List.length_cons]
    omega
  · have shorter := Text.length_lt_of_readQuoted _found
    simp only [List.length_cons]
    omega
  · simp

def SqlToken.literal? : SqlToken → Option String
  | quoted '\'' content => some (String.ofList content)
  | _ => none

def literals (tokens : List SqlToken) : List String :=
  tokens.filterMap SqlToken.literal?

theorem lex_comment (rest : List Char) :
    lex ('-' :: '-' :: rest) = .comment :: lex (rest.dropWhile (· != '\n')) := by
  rw [lex]

theorem lex_cons {c : Char} {rest : List Char} (free : isQuote c = false)
    (alone : c = '-' → rest.head? ≠ some '-') : lex (c :: rest) = .plain c :: lex rest := by
  rw [lex]
  · rw [if_neg (by simp [free])]
  · rintro behind rfl rfl
    exact alone rfl rfl

theorem lex_append {text : List Char} (free : ∀ c ∈ text, isQuote c = false ∧ c ≠ '-')
    (after : List Char) : lex (text ++ after) = text.map .plain ++ lex after := by
  induction text with
  | nil => rfl
  | cons c rest ih =>
    rw [List.forall_mem_cons] at free
    rw [List.cons_append, lex_cons free.1.1 (absurd · free.1.2), ih free.2]
    rfl

theorem lex_quoted {quote : Char} (isOne : isQuote quote = true) {content after : List Char}
    (follows : after.head? ≠ some quote) :
    lex (quote :: (Text.doubled quote content ++ quote :: after)) =
      .quoted quote content :: lex after := by
  have dash : quote ≠ '-' := by
    rintro rfl
    cases isOne
  rw [lex, if_pos isOne]
  · split
    · rename_i found
      rw [Text.readQuoted_doubled quote content after follows] at found
      cases found
      rfl
    · rename_i found
      rw [Text.readQuoted_doubled quote content after follows] at found
      cases found
  · rintro behind rfl
    exact absurd rfl dash

end SqlExpr
