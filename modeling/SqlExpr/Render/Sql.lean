import SqlExpr.Predicate.Negation
import SqlExpr.Render.Dialect
import SqlExpr.Render.Template

/-!
The SQL text of expressions. Operators are infix and in parentheses. Conditions are written as the
predicate that they stand for.
-/

namespace SqlExpr

def Operator.write : Operator → List String → String
  | .noop, [operand] => operand
  | .bitNot, [operand] => "~" ++ operand
  | .not, [operand] => "NOT " ++ operand
  | .power, [base, exponent] => "power(" ++ base ++ ", " ++ exponent ++ ")"
  | op, operands => "(" ++ (" " ++ op.symbol ++ " ").intercalate operands ++ ")"

/-- The truth value of a membership test on an empty list. -/
def emptyMembership? : Operator → List Expr → Option String
  | .isIn, [_, .list []] => some "(1 = 0)"
  | .notIn, [_, .list []] => some "(1 = 1)"
  | _, _ => none

def enclosed (texts : List String) : String :=
  "(" ++ ", ".intercalate texts ++ ")"

def NullsPlacement.sql : NullsPlacement → String
  | .first => " NULLS FIRST"
  | .last => " NULLS LAST"

def allTexts (texts : List (Except Error String)) : Except Error (List String) :=
  texts.mapM id

/-- What the text of an expression depends on: the dialect, and the text of conditions. -/
structure Rendering where
  dialect : Dialect
  conditions : List (Expr × Expr) → Except Error String

namespace Rendering

mutual

def write (r : Rendering) : Expr → Except Error String
  | .value v => .ok v.sql
  | .list items => do return enclosed (← allTexts (texts r items))
  | .conditions _ pairs => r.conditions pairs
  | .subquery sql => .ok ("(" ++ sql ++ ")")
  | .pattern p => .ok (Value.string p.text).sql
  | .identifier name => .ok (r.dialect.identifier name)
  | .qualified table column => do
    let table ← write r table
    let column ← write r column
    return table ++ "." ++ column
  | .columnAll table => do return (← write r table) ++ ".*"
  | .aliased expr label columns => do
    let text ← write r expr
    let named := text ++ " AS " ++ r.dialect.identifier label
    match columns with
    | none => return named
    | some columns => return named ++ enclosed (columns.map r.dialect.identifier)
  | .complex _ op args =>
    if op.arity.accepts args.length then
      match emptyMembership? op args with
      | some text => .ok text
      | none => do return op.write (← allTexts (texts r args))
    else .error (.operandCount op args.length)
  | .call name args distinct star =>
    if star then .ok (name ++ "(*)")
    else do
      let args ← allTexts (texts r args)
      return name ++ "(" ++ (if distinct then "DISTINCT " else "") ++ ", ".intercalate args ++ ")"
  | .cast expr typeName => do return "CAST(" ++ (← write r expr) ++ " AS " ++ typeName ++ ")"
  | .subscript expr indices => do
    let text ← write r expr
    let indices ← allTexts (texts r indices)
    return text ++ "[" ++ ", ".intercalate indices ++ "]"
  | .caseWhen branches otherwise subject => do
    let subject ← subjectText r subject
    let branches ← allTexts (branchTexts r branches)
    let otherwise ← write r otherwise
    return "(CASE" ++ subject ++ String.join branches ++ " ELSE " ++ otherwise ++ " END)"
  | .ordered expr descending nulls => do
    let text ← write r expr
    let direction := if descending then " DESC" else " ASC"
    return text ++ direction ++ (nulls.map NullsPlacement.sql).getD ""
  | .constant c => .ok c.sql
  | .isConstant truth => .ok (Value.ofTruth truth).sql
  | .isNotConstant truth => .ok ("NOT " ++ (Value.ofTruth truth).sql)
  | .literal sql => .ok sql
  | .placeholder template args parenthesize => do
    let text ← filled r template args
    return if parenthesize then "(" ++ text ++ ")" else text
  | .join kind table label condition => do
    let table ← write r table
    let named := match label with
      | none => ""
      | some label => " AS " ++ r.dialect.identifier label
    let condition ← conditionText r condition
    return kind.sql ++ " " ++ table ++ named ++ condition

def texts (r : Rendering) : List Expr → List (Except Error String)
  | [] => []
  | e :: rest => write r e :: texts r rest

def branchTexts (r : Rendering) : List (Expr × Expr) → List (Except Error String)
  | [] => []
  | (test, result) :: rest =>
    (do
      let test ← write r test
      let result ← write r result
      return " WHEN " ++ test ++ " THEN " ++ result) :: branchTexts r rest

def subjectText (r : Rendering) : Option Expr → Except Error String
  | none => .ok ""
  | some e => do return " " ++ (← write r e)

def namedTexts (r : Rendering) : List (String × Expr) → List (String × Except Error String)
  | [] => []
  | (name, e) :: rest => (name, write r e) :: namedTexts r rest

def filled (r : Rendering) (template : String) : PlaceholderArgs Expr → Except Error String
  | .positional args => Template.withMarks template (texts r args)
  | .named args => Template.withReferences template (namedTexts r args)

def conditionText (r : Rendering) : JoinCondition Expr → Except Error String
  | .unconstrained => .ok ""
  | .onPredicate predicate => do return " ON " ++ (← write r predicate)
  | .usingColumns columns => do return " USING " ++ enclosed (← allTexts (texts r columns))

end

/-- The text of conditions, written as their pairs joined by AND. -/
def writePairs (r : Rendering) (pairs : List (Expr × Expr)) : Except Error String := do
  write r (← Predicate.join .and (← predicates pairs)).toExpr

/-- The rendering of expressions with conditions nested to at most the given level. -/
def nested (dialect : Dialect) : Nat → Rendering
  | 0 => ⟨dialect, fun _ => .error (.operandCount .and 0)⟩
  | level + 1 => ⟨dialect, writePairs (nested dialect level)⟩

end Rendering

def Expr.sql (dialect : Dialect) (e : Expr) : Except Error String :=
  (Rendering.nested dialect e.depth).write e

end SqlExpr
