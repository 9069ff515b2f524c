import SqlExpr.Proofs.PlainText
import SqlExpr.Proofs.Throughout

/-!
The texts that a user gives - strings, patterns, names and labels - do not change the shape of SQL:
trees that differ in them only are written to the same lexemes.
-/

namespace SqlExpr

def Value.blank : Value → Value
  | string _ => string ""
  | v => v

def Pattern.blank : Pattern → Pattern
  | literal _ flag => literal "" flag
  | regex _ flag => regex "" flag

namespace Expr

mutual

/-- The expression with nothing in its strings, patterns, identifiers, labels and column names. -/
def blank : Expr → Expr
  | value v => value v.blank
  | list items => list (blanks items)
  | pattern p => pattern p.blank
  | identifier _ => identifier ""
  | qualified table column => qualified table.blank column.blank
  | columnAll table => columnAll table.blank
  | aliased expr _ columns => aliased expr.blank "" (columns.map (·.map fun _ => ""))
  | complex family op args => complex family op (blanks args)
  | call name args distinct star => call name (blanks args) distinct star
  | cast expr typeName => cast expr.blank typeName
  | subscript expr indices => subscript expr.blank (blanks indices)
  | caseWhen branches otherwise subject =>
    caseWhen (blankPairs branches) otherwise.blank (blankSubject subject)
  | ordered expr descending nulls => ordered expr.blank descending nulls
  | join kind table label condition =>
    join kind table.blank (label.map fun _ => "") (blankCondition condition)
  | conditions kind pairs => conditions kind pairs
  | subquery sql => subquery sql
  | constant c => constant c
  | isConstant truth => isConstant truth
  | isNotConstant truth => isNotConstant truth
  | literal sql => literal sql
  | placeholder template args parenthesize => placeholder template args parenthesize

def blanks : List Expr → List Expr
  | [] => []
  | e :: rest => e.blank :: blanks rest

def blankPairs : List (Expr × Expr) → List (Expr × Expr)
  | [] => []
  | (k, v) :: rest => (k.blank, v.blank) :: blankPairs rest

def blankSubject : Option Expr → Option Expr
  | none => none
  | some e => some e.blank

def blankCondition : JoinCondition Expr → JoinCondition Expr
  | .unconstrained => .unconstrained
  | .onPredicate predicate => .onPredicate predicate.blank
  | .usingColumns columns => .usingColumns (blanks columns)

end

/-- Nodes that bring no SQL text of their own: no conditions, raw text or template, and no quote in
the name of a function or of a type. -/
def isPlain : Expr → Prop
  | conditions .. | subquery _ | literal _ | placeholder .. => False
  | call name _ _ _ => QuoteFree name
  | cast _ typeName => QuoteFree typeName
  | _ => True

theorem blanks_eq_map (items : List Expr) : blanks items = items.map blank := by
  induction items with
  | nil => simp [blanks]
  | cons e rest ih => simp [blanks, ih]

theorem blankPairs_eq_map (pairs : List (Expr × Expr)) :
    blankPairs pairs = pairs.map fun (k, v) => (k.blank, v.blank) := by
  induction pairs with
  | nil => simp [blankPairs]
  | cons pair rest ih => simp [blankPairs, ih]

end Expr

theorem sameLexemes_blank (v : Value) : SameLexemes v.sql v.blank.sql := by
  cases v with
  | string text => exact .quoted rfl text ""
  | null | boolean | integer | float | blob => exact sameLexemes_value _

theorem emptyMembership?_blank (op : Operator) (args : List Expr) :
    emptyMembership? op (Expr.blanks args) = emptyMembership? op args := by
  rw [Expr.blanks_eq_map]
  have two (first second : Expr) : emptyMembership? op [first.blank, second.blank] =
      emptyMembership? op [first, second] := by
    cases second
    case list items => cases items <;> cases op <;> simp [Expr.blank, Expr.blanks, emptyMembership?]
    all_goals cases op <;> simp [Expr.blank, emptyMembership?]
  rcases args with _ | ⟨first, _ | ⟨second, _ | ⟨third, rest⟩⟩⟩
  · rfl
  · cases op <;> rfl
  · exact two first second
  · cases op <;> simp [emptyMembership?]

theorem quoteFree_emptyMembership? {op : Operator} {args : List Expr} {text : String}
    (found : emptyMembership? op args = some text) : QuoteFree text := by
  unfold emptyMembership? at found
  split at found <;> cases found <;> decide

namespace Operator

theorem write_between {op : Operator} (infixed : op ≠ .noop ∧ op ≠ .bitNot ∧ op ≠ .not ∧ op ≠ .power)
    (operands : List String) :
    op.write operands = "(" ++ (" " ++ op.symbol ++ " ").intercalate operands ++ ")" := by
  obtain ⟨noNoop, noBitNot, noNot, noPower⟩ := infixed
  cases op <;> first | rfl | contradiction

theorem sameLexemes_write (op : Operator) {texts texts' : List String}
    (each : List.Forall₂ SameLexemes texts texts') :
    SameLexemes (op.write texts) (op.write texts') := by
  have separator : QuoteFree (" " ++ op.symbol ++ " ") :=
    .append (.append (by decide) (quoteFree_symbol op)) (by decide)
  have operator : " " ++ op.symbol ++ " " ≠ "" := by
    cases op <;> decide
  have between : SameLexemes ("(" ++ (" " ++ op.symbol ++ " ").intercalate texts ++ ")")
      ("(" ++ (" " ++ op.symbol ++ " ").intercalate texts' ++ ")") :=
    .before (.after (by decide) (.intercalate separator operator each)) (by decide)
  by_cases infixed : op ≠ .noop ∧ op ≠ .bitNot ∧ op ≠ .not ∧ op ≠ .power
  · rw [write_between infixed, write_between infixed]
    exact between
  · have special : op = .noop ∨ op = .bitNot ∨ op = .not ∨ op = .power := by
      cases op <;> simp_all
    -- With another number of operands than their own, these are infix too.
    rcases each with _ | ⟨first, _ | ⟨second, _ | ⟨third, others⟩⟩⟩
    · rcases special with rfl | rfl | rfl | rfl <;> exact between
    · rcases special with rfl | rfl | rfl | rfl
      · exact first
      · exact .after (by decide) first
      · exact .after (by decide) first
      · exact between
    · rcases special with rfl | rfl | rfl | rfl
      · exact between
      · exact between
      · exact between
      · exact .before (.between (.after (by decide) first) (by decide) (by decide) second)
          (by decide)
    · rcases special with rfl | rfl | rfl | rfl <;> exact between

end Operator

/-! Writing step by step. -/

namespace Rendering

theorem texts_eq_map (r : Rendering) (items : List Expr) : texts r items = items.map r.write := by
  induction items with
  | nil => simp [texts]
  | cons e rest ih => simp [texts, ih]

theorem branchTexts_eq_map (r : Rendering) (branches : List (Expr × Expr)) :
    branchTexts r branches = branches.map fun (test, result) => do
      let test ← r.write test
      let result ← r.write result
      return " WHEN " ++ test ++ " THEN " ++ result := by
  induction branches with
  | nil => simp [branchTexts]
  | cons branch rest ih => simp [branchTexts, ih]

section Writing

variable {r r' : Rendering}

theorem agree_texts {items : List Expr}
    (each : ∀ item ∈ items, Agree SameLexemes (r.write item) (r'.write item.blank)) :
    Agree (List.Forall₂ SameLexemes) (allTexts (texts r items))
      (allTexts (texts r' (Expr.blanks items))) := by
  rw [allTexts, allTexts, texts_eq_map, texts_eq_map, Expr.blanks_eq_map, List.map_map,
    List.mapM_map, List.mapM_map]
  exact .mapM each

theorem agree_branchTexts {branches : List (Expr × Expr)}
    (each : ∀ side ∈ Expr.sides branches, Agree SameLexemes (r.write side) (r'.write side.blank)) :
    Agree (List.Forall₂ SameBehind) (allTexts (branchTexts r branches))
      (allTexts (branchTexts r' (Expr.blankPairs branches))) := by
  rw [allTexts, allTexts, branchTexts_eq_map, branchTexts_eq_map, Expr.blankPairs_eq_map,
    List.map_map, List.mapM_map, List.mapM_map]
  refine .mapM ?_
  rintro ⟨test, result⟩ member
  have first := each test (Expr.mem_sides.mpr ⟨_, member, .inl rfl⟩)
  have second := each result (Expr.mem_sides.mpr ⟨_, member, .inr rfl⟩)
  refine first.bind fun a a' same => second.bind fun b b' same' => .ok ?_
  have grouped (a b : String) : " WHEN " ++ a ++ " THEN " ++ b = " WHEN " ++ (a ++ " THEN " ++ b) := by
    simp [String.append_assoc]
  rw [grouped, grouped]
  exact .after (by decide) (by decide) (same.between (by decide) (by decide) same')

theorem agree_subjectText {subject : Option Expr}
    (each : ∀ e ∈ subject, Agree SameLexemes (r.write e) (r'.write e.blank)) :
    Agree SameBehind (subjectText r subject) (subjectText r' (Expr.blankSubject subject)) := by
  cases subject with
  | none =>
    simp only [Expr.blankSubject, subjectText]
    exact .ok (.plain (by decide))
  | some e =>
    simp only [Expr.blankSubject, subjectText]
    exact (each e rfl).bind fun a a' same => .ok (.after (by decide) (by decide) same)

theorem sameBehind_enclosed {texts texts' : List String}
    (each : List.Forall₂ SameLexemes texts texts') :
    SameBehind (enclosed texts) (enclosed texts') :=
  .append (.after (by decide) (by decide) (.intercalate (by decide) (by decide) each))
    (.plain (by decide))

theorem agree_conditionText {condition : JoinCondition Expr}
    (each : ∀ e ∈ condition.items, Agree SameLexemes (r.write e) (r'.write e.blank)) :
    Agree SameBehind (conditionText r condition)
      (conditionText r' (Expr.blankCondition condition)) := by
  cases condition with
  | unconstrained =>
    simp only [Expr.blankCondition, conditionText]
    exact .ok (.plain (by decide))
  | onPredicate predicate =>
    simp only [Expr.blankCondition, conditionText]
    exact (each predicate (by simp [JoinCondition.items])).bind
      fun a a' same => .ok (.after (by decide) (by decide) same)
  | usingColumns columns =>
    simp only [Expr.blankCondition, conditionText]
    exact (agree_texts each).bind
      fun a a' same => .ok (.after (by decide) (by decide) (sameBehind_enclosed same).1)

variable (quoting : r.dialect.quoteIdentifiers = true) (quoting' : r'.dialect.quoteIdentifiers = true)

include quoting quoting'

theorem sameLexemes_identifier (name name' : String) :
    SameLexemes (r.dialect.identifier name) (r'.dialect.identifier name') := by
  rw [Dialect.identifier, Dialect.identifier, if_pos quoting, if_pos quoting']
  exact .quoted rfl name name'

theorem sameBehind_columns (columns : List String) :
    SameBehind (enclosed (columns.map r.dialect.identifier))
      (enclosed ((columns.map fun _ => "").map r'.dialect.identifier)) := by
  apply sameBehind_enclosed
  rw [List.map_map, List.forall₂_map_left_iff, List.forall₂_map_right_iff, List.forall₂_same]
  exact fun name _ => sameLexemes_identifier quoting quoting' name ""

theorem sameBehind_label (label : Option String) :
    SameBehind (match label with
      | none => ""
      | some label => " AS " ++ r.dialect.identifier label)
      (match label.map fun _ => "" with
      | none => ""
      | some label => " AS " ++ r'.dialect.identifier label) := by
  cases label with
  | none =>
    have empty : SameBehind "" "" := .plain (by decide)
    exact empty
  | some label =>
    exact .after (by decide) (by decide) (sameLexemes_identifier quoting quoting' label "")

theorem agree_blank {e : Expr} (plain : e.Throughout Expr.isPlain) :
    Agree SameLexemes (r.write e) (r'.write e.blank) := by
  -- Every node puts text without quotes between the texts of its parts, which keeps apart the tokens
  -- that they end and start with.
  induction e using Expr.childrenInduction with
  | step e ih =>
    have each : ∀ child ∈ e.children, Agree SameLexemes (r.write child) (r'.write child.blank) :=
      fun child member => ih child member (plain.child member)
    have here := plain.here
    cases e
    case value v =>
      rw [Expr.blank, write, write]
      exact .ok (sameLexemes_blank v)
    case list items =>
      rw [Expr.blank, write, write]
      exact (agree_texts each).bind fun a a' same => .ok (sameBehind_enclosed same).1
    case conditions | subquery | literal | placeholder => exact here.elim
    case pattern p =>
      rw [Expr.blank, write, write]
      exact .ok (.quoted rfl _ _)
    case identifier name =>
      rw [Expr.blank, write, write]
      exact .ok (sameLexemes_identifier quoting quoting' name "")
    case qualified table column =>
      rw [Expr.blank, write, write]
      refine (each table (by simp [Expr.children])).bind fun a a' same => ?_
      refine (each column (by simp [Expr.children])).bind fun b b' same' => ?_
      exact .ok (same.between (by decide) (by decide) same')
    case columnAll table =>
      rw [Expr.blank, write, write]
      exact (each table (by simp [Expr.children])).bind
        fun a a' same => .ok (same.before (by decide))
    case aliased expr label columns =>
      rw [Expr.blank, write, write]
      refine (each expr (by simp [Expr.children])).bind fun a a' same => ?_
      have named : SameLexemes (a ++ " AS " ++ r.dialect.identifier label)
          (a' ++ " AS " ++ r'.dialect.identifier "") :=
        same.between (by decide) (by decide) (sameLexemes_identifier quoting quoting' label "")
      cases columns with
      | none => exact .ok named
      | some columns => exact .ok (named.append (sameBehind_columns quoting quoting' columns))
    case complex family op args =>
      have length : (Expr.blanks args).length = args.length := by
        rw [Expr.blanks_eq_map, List.length_map]
      rw [Expr.blank, write, write, length, emptyMembership?_blank]
      split
      · split
        · rename_i text found
          exact .ok (.plain (quoteFree_emptyMembership? found))
        · exact (agree_texts each).bind fun a a' same => .ok (op.sameLexemes_write same)
      · exact .error _
    case call name args distinct star =>
      rw [Expr.blank, write, write]
      split
      · exact .ok (.plain (.append here (by decide)))
      · refine (agree_texts each).bind fun a a' same => .ok ?_
        have opening : QuoteFree (name ++ "(" ++ if distinct then "DISTINCT " else "") := by
          refine .append (.append here (by decide)) ?_
          split <;> decide
        exact .before (.after opening (.intercalate (by decide) (by decide) same)) (by decide)
    case cast expr typeName =>
      rw [Expr.blank, write, write]
      refine (each expr (by simp [Expr.children])).bind fun a a' same => .ok ?_
      exact .before (.before (.before (.after (by decide) same) (by decide)) here) (by decide)
    case subscript expr indices =>
      rw [Expr.blank, write, write]
      refine (each expr (by simp [Expr.children])).bind fun a a' same => ?_
      refine (agree_texts fun index member => each index (by simp [Expr.children, member])).bind
        fun b b' same' => .ok ?_
      exact .before (same.between (by decide) (by decide)
        (.intercalate (by decide) (by decide) same')) (by decide)
    case caseWhen branches otherwise subject =>
      rw [Expr.blank, write, write]
      refine (agree_subjectText fun e member => each e (by simp_all [Expr.children])).bind
        fun a a' same => ?_
      refine (agree_branchTexts fun e member => each e (by simp [Expr.children, member])).bind
        fun b b' same' => ?_
      refine (each otherwise (by simp [Expr.children])).bind fun c c' same'' => .ok ?_
      have opening : SameLexemes "(CASE" "(CASE" := .plain (by decide)
      have compared := (opening.append same).append (.join same')
      exact .before (compared.between (by decide) (by decide) same'') (by decide)
    case ordered expr descending nulls =>
      rw [Expr.blank, write, write]
      refine (each expr (by simp [Expr.children])).bind fun a a' same => .ok ?_
      have direction : QuoteFree (if descending then " DESC" else " ASC") := by
        split <;> decide
      have placement : QuoteFree ((nulls.map NullsPlacement.sql).getD "") := by
        cases nulls with
        | none => decide
        | some nulls => exact quoteFree_nullsPlacement nulls
      exact (same.before direction).before placement
    case constant c =>
      rw [Expr.blank, write, write]
      exact .ok (.plain (quoteFree_namedConstant c))
    case isConstant truth =>
      rw [Expr.blank, write, write]
      exact .ok (sameLexemes_value _)
    case isNotConstant truth =>
      simp only [Expr.blank, write]
      exact .ok (.after (by decide) (sameLexemes_value _))
    case join kind table label condition =>
      simp only [Expr.blank, write]
      refine (each table (by simp [Expr.children])).bind fun a a' same => ?_
      refine (agree_conditionText fun e member => each e (by simp [Expr.children, member])).bind
        fun b b' same' => .ok ?_
      have opening := same.after (.append (quoteFree_joinKind kind) (by decide : QuoteFree " "))
      exact (opening.append (sameBehind_label quoting quoting' label)).append same'

end Writing

theorem dialect_nested (dialect : Dialect) (level : Nat) :
    (nested dialect level).dialect = dialect := by
  cases level <;> rfl

end Rendering

theorem agree_sql_blank {e : Expr} (plain : e.Throughout Expr.isPlain) :
    Agree SameLexemes (e.sql ⟨true⟩) ((Rendering.nested ⟨true⟩ 0).write e.blank) := by
  apply Rendering.agree_blank
  · rw [Rendering.dialect_nested]
  · rfl
  · exact plain

/-- Trees that differ only in the texts that a user gives fail alike, or are written to texts that
end outside quotes and have the same lexemes. -/
theorem sql_sameShape {e e' : Expr} (plain : e.Throughout Expr.isPlain)
    (plain' : e'.Throughout Expr.isPlain) (same : e.blank = e'.blank) :
    (∃ failure, e.sql ⟨true⟩ = .error failure ∧ e'.sql ⟨true⟩ = .error failure) ∨
      ∃ text text' lexemes, e.sql ⟨true⟩ = .ok text ∧ e'.sql ⟨true⟩ = .ok text' ∧
        Lexeme.ofText text = some lexemes ∧ Lexeme.ofText text' = some lexemes := by
  have first := (agree_sql_blank plain).cases_eq
  have second := (agree_sql_blank plain').cases_eq
  rw [← same] at second
  rcases first with ⟨failure, failed, stuck⟩ | ⟨text, middle, written, found, lexemes, reads, shared⟩
  · rw [stuck] at second
    rcases second with ⟨failure', failed', stuck'⟩ | ⟨_, _, _, found', _⟩
    · cases stuck'
      exact .inl ⟨failure, failed, failed'⟩
    · cases found'
  · rw [found] at second
    rcases second with ⟨_, _, stuck'⟩ | ⟨text', middle', written', found', lexemes', reads', shared'⟩
    · cases stuck'
    · cases found'
      have alike : lexemes = lexemes' := by
        have both := shared.ofText_eq.symm.trans shared'.ofText_eq
        simpa using both
      refine .inr ⟨text, text', lexemes, written, written', reads.ofText_eq, ?_⟩
      rw [alike]
      exact reads'.ofText_eq

def comparedWith (name text : String) : Expr :=
  .complex .boolean .eq [.identifier name, .value (.string text)]

theorem plain_comparedWith (name text : String) :
    (comparedWith name text).Throughout Expr.isPlain := by
  refine .intro trivial ?_
  simp only [comparedWith, Expr.children, List.mem_cons, List.not_mem_nil, or_false]
  rintro child (rfl | rfl) <;> exact .leaf trivial rfl

theorem sql_sameShape_comparedWith :
    (∃ failure, (comparedWith "a" "b").sql ⟨true⟩ = .error failure ∧
        (comparedWith "a\"" "' OR ''='").sql ⟨true⟩ = .error failure) ∨
      ∃ text text' lexemes, (comparedWith "a" "b").sql ⟨true⟩ = .ok text ∧
        (comparedWith "a\"" "' OR ''='").sql ⟨true⟩ = .ok text' ∧
        Lexeme.ofText text = some lexemes ∧ Lexeme.ofText text' = some lexemes :=
  sql_sameShape (plain_comparedWith _ _) (plain_comparedWith _ _)
    (by simp [comparedWith, Expr.blank, Expr.blanks, Value.blank])

end SqlExpr
