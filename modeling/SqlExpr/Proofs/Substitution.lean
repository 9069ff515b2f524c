import Mathlib.Data.List.Chain
import SqlExpr.Proofs.Spelling
import SqlExpr.Proofs.Tokens

/-!
Templates filled with integers and strings. The text is read piece by piece, and the arguments come
back as they were given, unless two neighbouring pieces run into one another: dashes that make a
comment, or string literals that make one literal.
-/

namespace SqlExpr

open Lexeme (isQuote)

inductive Filling where
  | integer (n : Int64)
  | string (text : String)

namespace Filling

def value : Filling → Value
  | integer n => .integer n
  | string text => .string text

def string? : Filling → Option String
  | integer _ => none
  | string text => some text

end Filling

/-- A character of a template, or an argument in the place of a mark. -/
inductive Piece where
  | plain (c : Char)
  | filled (arg : Filling)

namespace Piece

def text : Piece → List Char
  | plain c => [c]
  | filled arg => arg.value.sql.toList

def string? : Piece → Option String
  | plain _ => none
  | filled arg => arg.string?

/-- Written side by side, the two are not read apart. -/
def runsInto : Piece → Piece → Bool
  | plain '-', plain '-' => true
  | plain '-', filled (.integer n) => n.toInt < 0
  | filled (.string _), filled (.string _) => true
  | _, _ => false

end Piece

/-- The characters of a template with the arguments in the places of its marks. -/
def pieces : List Char → List Filling → List Piece
  | [], _ => []
  | c :: rest, args =>
    if c = '?' then
      match args with
      | [] => []
      | arg :: args => .filled arg :: pieces rest args
    else .plain c :: pieces rest args

def written (list : List Piece) : List Char :=
  list.flatMap Piece.text

def strings (list : List Piece) : List String :=
  list.filterMap Piece.string?

def Apart (list : List Piece) : Prop :=
  list.IsChain fun first second => first.runsInto second = false

theorem pieces_mark (rest : List Char) (arg : Filling) (args : List Filling) :
    pieces ('?' :: rest) (arg :: args) = .filled arg :: pieces rest args := rfl

theorem pieces_plain {c : Char} (other : c ≠ '?') (rest : List Char) (args : List Filling) :
    pieces (c :: rest) args = .plain c :: pieces rest args := by
  simp [pieces, other]

instance (list : List Piece) : Decidable (Apart list) :=
  inferInstanceAs (Decidable (List.IsChain _ list))

/-- No character of the template among the pieces is a quote. -/
def Quoteless (list : List Piece) : Prop :=
  ∀ c, .plain c ∈ list → isQuote c = false

/-- The text has no comment, and its string literals are the given ones, in order. -/
def ReadsBack (text : List Char) (strings : List String) : Prop :=
  .comment ∉ lex text ∧ literals (lex text) = strings

/-! What one piece is read as. -/

theorem toList_integer (n : Int) : ∃ digits : List Char, digits ≠ [] ∧
    (∀ c ∈ digits, c.isDigit = true) ∧
    (toString n).toList = (if n < 0 then ['-'] else []) ++ digits := by
  have written (n : Nat) : n.repr.toList ≠ [] ∧ ∀ c ∈ n.repr.toList, c.isDigit = true := by
    rw [Nat.toList_repr]
    exact ⟨Nat.toDigits_ne_nil, fun c => Nat.isDigit_of_mem_toDigits (by decide) (by decide)⟩
  cases n with
  | ofNat n =>
    have positive : ¬Int.ofNat n < 0 := by simp
    exact ⟨n.repr.toList, (written n).1, (written n).2, by rw [if_neg positive]; rfl⟩
  | negSucc n =>
    have negative : Int.negSucc n < 0 := Int.negSucc_lt_zero n
    refine ⟨(n + 1).repr.toList, (written _).1, (written _).2, ?_⟩
    rw [if_pos negative]
    exact String.toList_append

theorem written_integer (n : Int64) (rest : List Piece) : ∃ first behind,
    written (.filled (.integer n) :: rest) = first :: behind ∧
      (first = '-' ↔ n.toInt < 0) ∧ isQuote first = false := by
  obtain ⟨digits, some, every, text⟩ := toList_integer n.toInt
  have shown : written (.filled (.integer n) :: rest) =
      (if n.toInt < 0 then ['-'] else []) ++ digits ++ written rest := by
    rw [← text]
    rfl
  by_cases negative : n.toInt < 0
  · exact ⟨'-', digits ++ written rest, by simp [shown, negative], by simp [negative], by decide⟩
  · obtain ⟨first, others, rfl⟩ := List.exists_cons_of_ne_nil some
    have digit := every first (by simp)
    refine ⟨first, others ++ written rest, by simp [shown, negative], ?_,
      isQuote_of_isDigit digit⟩
    refine iff_of_false ?_ negative
    rintro rfl
    exact absurd digit (by decide)

theorem read_integer (n : Int) (after : List Char) :
    lex ((toString n).toList ++ after) = (toString n).toList.map .plain ++ lex after := by
  obtain ⟨digits, some, every, text⟩ := toList_integer n
  have plain : ∀ c ∈ digits, isQuote c = false ∧ c ≠ '-' := by
    intro c member
    refine ⟨isQuote_of_isDigit (every c member), ?_⟩
    rintro rfl
    exact absurd (every _ member) (by decide)
  rw [text]
  split
  · obtain ⟨first, others, rfl⟩ := List.exists_cons_of_ne_nil some
    have other : first ≠ '-' := (plain first (by simp)).2
    rw [List.append_assoc, List.singleton_append, lex_cons (by decide) (by simpa using other),
      lex_append plain]
    rfl
  · exact lex_append plain after

namespace Piece

theorem runsInto_dash (second : Piece) (rest : List Piece) :
    (plain '-').runsInto second = true ↔ (written (second :: rest)).head? = some '-' := by
  cases second with
  | plain c =>
    have head : (written (plain c :: rest)).head? = some c := rfl
    rw [head, Option.some.injEq]
    by_cases dash : c = '-'
    · subst dash
      exact iff_of_true rfl rfl
    · refine iff_of_false ?_ dash
      unfold runsInto
      split <;> simp_all
  | filled arg =>
    cases arg with
    | integer n =>
      obtain ⟨first, behind, shown, dash, _⟩ := written_integer n rest
      simp [runsInto, shown, dash]
    | string text => simp [runsInto, written, Piece.text, Filling.value, Value.sql, Text.quoted]

theorem runsInto_string (text : String) {second : Piece} (rest : List Piece)
    (free : ∀ c, second = plain c → isQuote c = false) :
    (filled (.string text)).runsInto second = true ↔
      (written (second :: rest)).head? = some '\'' := by
  have other {c : Char} (free : isQuote c = false) : c ≠ '\'' := by
    rintro rfl
    cases free
  cases second with
  | plain c => simp [runsInto, written, Piece.text, other (free c rfl)]
  | filled arg =>
    cases arg with
    | integer n =>
      obtain ⟨first, behind, shown, _, quote⟩ := written_integer n rest
      simp [runsInto, shown, other quote]
    | string text => simp [runsInto, written, Piece.text, Filling.value, Value.sql, Text.quoted]

end Piece

open Piece

theorem quoteless_cons {first : Piece} {rest : List Piece} :
    Quoteless (first :: rest) ↔ (∀ c, first = .plain c → isQuote c = false) ∧ Quoteless rest := by
  simp only [Quoteless, List.mem_cons]
  constructor
  · intro free
    exact ⟨fun c same => free c (.inl same.symm), fun c member => free c (.inr member)⟩
  · rintro ⟨here, later⟩ c (same | member)
    · exact here c same.symm
    · exact later c member

/-! What the first piece is read as, if it does not run into the next one. -/

theorem lex_plain {c : Char} {rest : List Piece} (free : isQuote c = false)
    (apart : ∀ second ∈ rest.head?, (plain c).runsInto second = false) :
    lex (written (plain c :: rest)) = .plain c :: lex (written rest) := by
  apply lex_cons free
  rintro rfl head
  cases rest with
  | nil => cases head
  | cons second behind =>
    have joined := (runsInto_dash second behind).mpr head
    rw [apart second rfl] at joined
    cases joined

theorem lex_integer (n : Int64) (rest : List Piece) :
    lex (written (filled (.integer n) :: rest)) =
      (toString n.toInt).toList.map .plain ++ lex (written rest) :=
  read_integer n.toInt (written rest)

theorem lex_string {text : String} {rest : List Piece} (free : Quoteless rest)
    (apart : ∀ second ∈ rest.head?, (filled (.string text)).runsInto second = false) :
    lex (written (filled (.string text) :: rest)) =
      .quoted '\'' text.toList :: lex (written rest) := by
  have follows : (written rest).head? ≠ some '\'' := by
    intro head
    cases rest with
    | nil => cases head
    | cons second behind =>
      have joined := (runsInto_string text behind (quoteless_cons.mp free).1).mpr head
      rw [apart second rfl] at joined
      cases joined
  simpa [written, Piece.text, Filling.value, Value.sql, Text.quoted] using
    lex_quoted (by decide) follows

/-! What two pieces that run into one another are read as. -/

theorem comment_mem_lex {second : Piece} {rest : List Piece}
    (joined : (plain '-').runsInto second = true) :
    .comment ∈ lex (written (plain '-' :: second :: rest)) := by
  have head := (runsInto_dash second rest).mp joined
  obtain ⟨behind, text⟩ := List.head?_eq_some_iff.mp head
  have shown : written (plain '-' :: second :: rest) = '-' :: '-' :: behind := by
    rw [← text]
    rfl
  rw [shown, lex_comment]
  simp

theorem written_strings (text text' : String) (rest : List Piece) :
    written (filled (.string text) :: filled (.string text') :: rest) =
      written (filled (.string (text ++ "'" ++ text')) :: rest) := by
  simp [written, Piece.text, Filling.value, Value.sql, Text.quoted, Text.doubled_append, Text.doubled]

theorem quoteless_merged (text : String) {second : Piece} {rest : List Piece}
    (free : Quoteless (second :: rest)) : Quoteless (.filled (.string text) :: rest) :=
  quoteless_cons.mpr ⟨by simp, (quoteless_cons.mp free).2⟩

theorem runsInto_cases {first second : Piece} (joined : first.runsInto second = true) :
    first = .plain '-' ∨
      ∃ text text', first = .filled (.string text) ∧ second = .filled (.string text') := by
  unfold runsInto at joined
  split at joined
  · exact .inl rfl
  · exact .inl rfl
  · exact .inr ⟨_, _, rfl, rfl⟩
  · cases joined

/-! Whole texts. -/

theorem strings_cons (first : Piece) (rest : List Piece) :
    strings (first :: rest) = first.string?.toList ++ strings rest := by
  cases found : first.string? <;> simp [strings, found]

theorem literals_append (tokens later : List SqlToken) :
    literals (tokens ++ later) = literals tokens ++ literals later :=
  List.filterMap_append

theorem literals_map_plain (text : List Char) : literals (text.map .plain) = [] := by
  simp [literals, SqlToken.literal?]

theorem read_apart {first : Piece} {rest : List Piece} (free : Quoteless (first :: rest))
    (apart : ∀ second ∈ rest.head?, first.runsInto second = false) :
    (.comment ∈ lex (written (first :: rest)) ↔ .comment ∈ lex (written rest)) ∧
      literals (lex (written (first :: rest))) =
        first.string?.toList ++ literals (lex (written rest)) := by
  obtain ⟨here, later⟩ := quoteless_cons.mp free
  cases first with
  | plain c =>
    rw [lex_plain (here c rfl) apart]
    exact ⟨by simp, rfl⟩
  | filled arg =>
    cases arg with
    | integer n =>
      rw [lex_integer, literals_append, literals_map_plain]
      exact ⟨by simp, rfl⟩
    | string text =>
      rw [lex_string later apart]
      refine ⟨by simp, ?_⟩
      simp [literals, SqlToken.literal?, string?, Filling.string?]

theorem apart_or_joined (first : Piece) (rest : List Piece) :
    (∀ second ∈ rest.head?, first.runsInto second = false) ∨
      ∃ second behind, rest = second :: behind ∧ first.runsInto second = true := by
  cases rest with
  | nil => simp
  | cons second behind => cases joined : first.runsInto second <;> simp [joined]

theorem length_strings_merged (text text' merged : String) (rest : List Piece) :
    (strings (filled (.string text) :: filled (.string text') :: rest)).length =
      (strings (filled (.string merged) :: rest)).length + 1 := by
  simp [strings_cons, string?, Filling.string?]

theorem length_literals_le {list : List Piece} (free : Quoteless list)
    (quiet : .comment ∉ lex (written list)) :
    (literals (lex (written list))).length ≤ (strings list).length := by
  -- Strings side by side become one piece, so the induction is on the number of pieces.
  induction size : list.length generalizing list with
  | zero =>
    rw [List.length_eq_zero_iff.mp size]
    simp [written, lex, literals]
  | succ count ih =>
    obtain ⟨first, rest, rfl⟩ := List.exists_cons_of_length_eq_add_one size
    have shorter : rest.length = count := by simpa using size
    obtain ⟨_, later⟩ := quoteless_cons.mp free
    rcases apart_or_joined first rest with apart | ⟨second, behind, rfl, joined⟩
    · obtain ⟨comments, contents⟩ := read_apart free apart
      have bound := ih later (by rwa [← comments]) shorter
      rw [contents, strings_cons, List.length_append, List.length_append]
      omega
    · rcases runsInto_cases joined with rfl | ⟨text, text', rfl, rfl⟩
      · exact absurd (comment_mem_lex joined) quiet
      · have merged := quoteless_merged (text ++ "'" ++ text') later
        rw [written_strings] at quiet ⊢
        have bound := ih merged quiet (by simpa using shorter)
        have fewer := length_strings_merged text text' (text ++ "'" ++ text') behind
        omega

/-- The text reads back exactly if no two neighbours run into one another. -/
theorem readsBack_iff_apart {list : List Piece} (free : Quoteless list) :
    ReadsBack (written list) (strings list) ↔ Apart list := by
  induction list with
  | nil => simp [ReadsBack, Apart, written, lex, literals, strings]
  | cons first rest ih =>
    obtain ⟨_, later⟩ := quoteless_cons.mp free
    rcases apart_or_joined first rest with apart | ⟨second, behind, rfl, joined⟩
    · obtain ⟨comments, contents⟩ := read_apart free apart
      rw [Apart, List.isChain_cons, ← Apart, ← ih later, ReadsBack, ReadsBack, comments, contents,
        strings_cons, List.append_cancel_left_eq]
      exact (and_iff_right apart).symm
    · refine iff_of_false ?_ ?_
      · rintro ⟨quiet, same⟩
        rcases runsInto_cases joined with rfl | ⟨text, text', rfl, rfl⟩
        · exact quiet (comment_mem_lex joined)
        · have merged := quoteless_merged (text ++ "'" ++ text') later
          rw [written_strings] at quiet same
          have bound := length_literals_le merged quiet
          have fewer := length_strings_merged text text' (text ++ "'" ++ text') behind
          rw [same] at bound
          omega
      · intro chain
        rw [Apart, List.isChain_cons_cons, joined] at chain
        cases chain.1

/-! The text of a placeholder. -/

/-- The arguments are as many as the marks. -/
inductive Fills : List Char → List Filling → Prop
  | nil : Fills [] []
  | mark {rest : List Char} {args : List Filling} (arg : Filling) :
      Fills rest args → Fills ('?' :: rest) (arg :: args)
  | plain {c : Char} {rest : List Char} {args : List Filling} :
      c ≠ '?' → Fills rest args → Fills (c :: rest) args

theorem fills_of_count {text : List Char} {args : List Filling}
    (count : args.length = text.count '?') : Fills text args := by
  induction text generalizing args with
  | nil =>
    rw [List.length_eq_zero_iff.mp count]
    exact .nil
  | cons c rest ih =>
    by_cases mark : c = '?'
    · subst mark
      rw [List.count_cons_self] at count
      obtain ⟨arg, others, rfl⟩ := List.exists_cons_of_length_eq_add_one count
      exact .mark arg (ih (by simpa using count))
    · rw [List.count_cons_of_ne mark] at count
      exact .plain mark (ih count)

theorem quoteless_pieces {text : List Char} (free : Lexeme.Unquoted text) {args : List Filling}
    (fills : Fills text args) : Quoteless (pieces text args) := by
  induction fills with
  | nil => simp [pieces, Quoteless]
  | mark arg _ ih =>
    rw [pieces_mark, quoteless_cons]
    exact ⟨by simp, ih (Lexeme.unquoted_cons.mp free).2⟩
  | plain other _ ih =>
    obtain ⟨here, later⟩ := Lexeme.unquoted_cons.mp free
    rw [pieces_plain other, quoteless_cons]
    exact ⟨by simpa using here, ih later⟩

theorem strings_pieces {text : List Char} {args : List Filling} (fills : Fills text args) :
    strings (pieces text args) = args.filterMap Filling.string? := by
  induction fills with
  | nil => rfl
  | mark arg _ ih =>
    rw [pieces_mark, strings_cons, ih, List.filterMap_cons]
    cases arg <;> rfl
  | plain other _ ih =>
    rw [pieces_plain other, strings_cons, ih]
    rfl

theorem marked_plain {c : Char} (free : isQuote c = false) (other : c ≠ '?') (rest : List Char) :
    Template.marked false (c :: rest) = .text c :: Template.marked false rest := by
  have outside : Template.quotedAfter false c = false := by
    unfold Template.quotedAfter
    split
    · rename_i quote
      subst quote
      cases free
    · rfl
  rw [Template.marked, outside, if_neg (by simp [other])]

theorem fillMarks_pieces (template : String) {text : List Char} (free : Lexeme.Unquoted text)
    {args : List Filling} (fills : Fills text args) :
    Template.fillMarks template (Template.marked false text) (args.map fun arg => .ok arg.value.sql) =
      .ok (written (pieces text args)) := by
  induction fills with
  | nil => rfl
  | @mark rest _ arg _ ih =>
    have opened : Template.marked false ('?' :: rest) = .hole () :: Template.marked false rest := rfl
    rw [opened, List.map_cons, Template.fillMarks, ih (Lexeme.unquoted_cons.mp free).2]
    rfl
  | plain other _ ih =>
    obtain ⟨here, later⟩ := Lexeme.unquoted_cons.mp free
    rw [marked_plain here other, Template.fillMarks, ih later, pieces_plain other]
    rfl

def parenthesized (list : List Piece) : List Piece :=
  .plain '(' :: (list ++ [.plain ')'])

theorem quoteless_parenthesized {list : List Piece} (free : Quoteless list) :
    Quoteless (parenthesized list) := by
  intro c member
  simp only [parenthesized, List.mem_cons, List.mem_append, List.not_mem_nil, or_false] at member
  rcases member with same | member | same
  · cases same
    decide
  · exact free c member
  · cases same
    decide

theorem strings_parenthesized (list : List Piece) : strings (parenthesized list) = strings list := by
  simp [strings, parenthesized, string?, List.filterMap_cons]

theorem apart_parenthesized (list : List Piece) : Apart (parenthesized list) ↔ Apart list := by
  have opening (second : Piece) : (plain '(').runsInto second = false := rfl
  have closing (first : Piece) : first.runsInto (plain ')') = false := by
    unfold runsInto
    split <;> first | rfl | simp_all
  simp [Apart, parenthesized, List.isChain_cons, List.isChain_append, opening, closing]

theorem texts_filling (r : Rendering) (args : List Filling) :
    Rendering.texts r (args.map fun arg => .value arg.value) =
      args.map fun arg => .ok arg.value.sql := by
  rw [Rendering.texts_eq_map, List.map_map]
  refine List.map_congr_left fun arg _ => ?_
  rw [Function.comp_apply, Rendering.write]

theorem sql_placeholder (dialect : Dialect) {template : String} (free : QuoteFree template)
    {args : List Filling} (count : args.length = template.toList.count '?') (parenthesize : Bool) :
    (Expr.placeholder template (.positional (args.map fun arg => .value arg.value))
        parenthesize).sql dialect =
      .ok (String.ofList (written (if parenthesize then parenthesized (pieces template.toList args)
        else pieces template.toList args))) := by
  rw [Expr.sql, Rendering.write, Rendering.filled, texts_filling, Template.withMarks,
    fillMarks_pieces template free (fills_of_count count)]
  cases parenthesize with
  | false => rfl
  | true =>
    apply congrArg Except.ok
    apply String.toList_injective
    simp [parenthesized, written, Piece.text]

/-- A template without quotes whose marks are all filled with integers and strings has a text, and
the text has no comment and the strings as its literals exactly if no two pieces that stand side by
side run into one another. -/
theorem readsBack_placeholder_iff (dialect : Dialect) {template : String}
    (free : QuoteFree template) {args : List Filling}
    (count : args.length = template.toList.count '?') (parenthesize : Bool) :
    ∃ text, (Expr.placeholder template (.positional (args.map fun arg => .value arg.value))
        parenthesize).sql dialect = .ok text ∧
      (ReadsBack text.toList (args.filterMap Filling.string?) ↔
        Apart (pieces template.toList args)) := by
  refine ⟨_, sql_placeholder dialect free count parenthesize, ?_⟩
  have fills := fills_of_count count
  have quoteless := quoteless_pieces free fills
  have same := strings_pieces fills
  rw [String.toList_ofList, ← same]
  cases parenthesize with
  | false => exact readsBack_iff_apart quoteless
  | true =>
    rw [if_pos rfl, ← strings_parenthesized, readsBack_iff_apart (quoteless_parenthesized quoteless),
      apart_parenthesized]

theorem readsBack_placeholder_iff_quote :
    ∃ text, (Expr.placeholder "name = ? AND total -? > 0" (.positional
        [.value (.string "O'Hara"), .value (.integer 5)]) true).sql {} = .ok text ∧
      ReadsBack text.toList ["O'Hara"] := by
  have free : QuoteFree "name = ? AND total -? > 0" := by decide
  have count : [Filling.string "O'Hara", .integer 5].length =
      "name = ? AND total -? > 0".toList.count '?' := by decide
  obtain ⟨text, shown, reads⟩ := readsBack_placeholder_iff {} free count true
  exact ⟨text, shown, reads.mpr (by decide)⟩

/-- After a dash the sign of an integer makes a comment of it and of all behind it. -/
theorem not_readsBack_negative :
    ¬ ∀ (template : String) (args : List Filling), QuoteFree template →
      ¬"--".toList <:+: template.toList → args.length = template.toList.count '?' →
      ∀ text, (Expr.placeholder template (.positional (args.map fun arg => .value arg.value))
          false).sql {} = .ok text → ReadsBack text.toList (args.filterMap Filling.string?) := by
  intro safe
  have free : QuoteFree "total -?" := by decide
  have reads := safe "total -?" [.integer (-5)] free (by decide +kernel) (by decide) _
    (sql_placeholder {} free (by decide) false)
  rw [String.toList_ofList] at reads
  have quoteless : Quoteless (pieces "total -?".toList [.integer (-5)]) :=
    quoteless_pieces free (fills_of_count (by decide))
  exact absurd ((readsBack_iff_apart quoteless).mp reads) (by decide)

end SqlExpr
