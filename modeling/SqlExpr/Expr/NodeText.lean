import SqlExpr.Decimal.Layout
import SqlExpr.Expr.Basic
import SqlExpr.Text.Hidden

/-!
The full text of a node, as error messages show it: every field of every node by name.
-/

namespace SqlExpr

namespace NodeText

def tagged (tag inner : String) : String :=
  tag ++ "(" ++ inner ++ ")"

def listing (texts : List String) : String :=
  "[" ++ ", ".intercalate texts ++ "]"

def record (tag : String) (fields : List (String × String)) : String :=
  tag ++ " \x7b " ++ ", ".intercalate (fields.map fun (field, text) => field ++ ": " ++ text) ++
    " \x7d"

def option : Option String → String
  | none => "None"
  | some text => tagged "Some" text

def truth (b : Bool) : String :=
  if b then "true" else "false"

/-- A character inside quotes; hidden ones are shown as their code point. -/
def escapeChar (c : Char) : List Char :=
  match c with
  | '"' => ['\\', '"']
  | '\\' => ['\\', '\\']
  | '\n' => ['\\', 'n']
  | '\r' => ['\\', 'r']
  | '\t' => ['\\', 't']
  | '\x00' => ['\\', '0']
  | c =>
    if Text.isHidden c then
      '\\' :: 'u' :: '\x7b' :: (Nat.toDigits 16 c.toNat ++ ['\x7d'])
    else [c]

def string (text : String) : String :=
  String.ofList ('"' :: (text.toList.flatMap escapeChar ++ ['"']))

def float (x : Float) : String :=
  match Decimal.Layout.plain.write? x with
  | some text => text
  | none => if x.isNaN then "NaN" else if x < 0 then "-inf" else "inf"

end NodeText

open NodeText

def Value.nodeText : Value → String
  | .null => "Null"
  | .boolean b => tagged "Boolean" (truth b)
  | .integer n => tagged "Integer" (toString n.toInt)
  | .float x => tagged "Float" (NodeText.float x)
  | .string text => tagged "String" (NodeText.string text)
  | .blob bytes => tagged "Blob" (listing (bytes.map fun byte => toString byte.toNat))

def Pattern.nodeText : Pattern → String
  | .literal text flag =>
    record "Literal" [("text", NodeText.string text), ("case_insensitive", truth flag)]
  | .regex source flag =>
    record "Regex" [("source", NodeText.string source), ("case_insensitive", truth flag)]

def complexText (family : Family) (op : Operator) (args : List String) : String :=
  record "ComplexExpression"
    [("family", family.name), ("op", op.name), ("args", listing args)]

namespace Expr

mutual

def nodeText : Expr → String
  | value v => tagged "Value" v.nodeText
  | list items => tagged "List" (listing (nodeTexts items))
  | conditions kind pairs =>
    tagged "Conditions" (record "Conditions"
      [("kind", kind.name), ("pairs", listing (pairTexts pairs))])
  | subquery sql => tagged "Subquery" (record "Subquery" [("sql", NodeText.string sql)])
  | pattern p => tagged "Pattern" p.nodeText
  | identifier name =>
    tagged "Identifier" (record "Identifier" [("value", NodeText.string name)])
  | qualified table column =>
    tagged "Qualified" (record "QualifiedIdentifier"
      [("table", table.nodeText), ("column", column.nodeText)])
  | columnAll table => tagged "ColumnAll" (record "ColumnAll" [("table", table.nodeText)])
  | aliased expr label columns =>
    tagged "Aliased" (record "AliasedExpression"
      [("expression", expr.nodeText), ("alias", NodeText.string label),
       ("columns", option (columns.map fun names => listing (names.map NodeText.string)))])
  | complex family op args => tagged "Complex" (complexText family op (nodeTexts args))
  | call name args distinct star =>
    tagged "Function" (record "SqlFunction"
      [("name", NodeText.string name), ("args", listing (nodeTexts args)),
       ("distinct", truth distinct), ("star", truth star)])
  | cast expr typeName =>
    tagged "Cast" (record "Cast"
      [("expr", expr.nodeText), ("type_name", NodeText.string typeName)])
  | subscript expr indices =>
    tagged "Subscript" (record "Subscript"
      [("expr", expr.nodeText), ("indices", listing (nodeTexts indices))])
  | caseWhen branches otherwise subject =>
    tagged "Case" (record "CaseExpression"
      [("conditions", listing (pairTexts branches)), ("else_result", otherwise.nodeText),
       ("subject", option (nodeText? subject))])
  | ordered expr descending nulls =>
    tagged "Ordered" (record "OrderedExpression"
      [("expression", expr.nodeText), ("descending", truth descending),
       ("nulls", option (nulls.map NullsPlacement.name))])
  | constant c => tagged "Constant" c.name
  | isConstant b => tagged "BooleanConstant" (tagged "BooleanConstant" (option (b.map truth)))
  | isNotConstant b =>
    tagged "NegativeBooleanConstant" (tagged "NegativeBooleanConstant" (option (b.map truth)))
  | literal sql => tagged "Literal" (record "LiteralString" [("sql", NodeText.string sql)])
  | placeholder template args parenthesize =>
    tagged "Placeholder" (record "PlaceholderLiteralString"
      [("template", NodeText.string template), ("args", argsText args),
       ("parenthesize", truth parenthesize)])
  | join kind table label condition =>
    tagged "Join" (record "JoinClause"
      [("join_type", kind.name), ("table", table.nodeText),
       ("table_alias", option (label.map NodeText.string)), ("condition", conditionText condition)])

def nodeTexts : List Expr → List String
  | [] => []
  | e :: rest => e.nodeText :: nodeTexts rest

def pairTexts : List (Expr × Expr) → List String
  | [] => []
  | (k, v) :: rest => ("(" ++ k.nodeText ++ ", " ++ v.nodeText ++ ")") :: pairTexts rest

def nodeText? : Option Expr → Option String
  | none => none
  | some e => some e.nodeText

def namedTexts : List (String × Expr) → List String
  | [] => []
  | (name, e) :: rest =>
    ("(" ++ NodeText.string name ++ ", " ++ e.nodeText ++ ")") :: namedTexts rest

def argsText : PlaceholderArgs Expr → String
  | .positional args => tagged "Positional" (listing (nodeTexts args))
  | .named args => tagged "Named" (listing (namedTexts args))

def conditionText : JoinCondition Expr → String
  | .unconstrained => "None"
  | .onPredicate predicate => tagged "On" predicate.nodeText
  | .usingColumns columns => tagged "Using" (listing (nodeTexts columns))

end

end Expr

end SqlExpr
