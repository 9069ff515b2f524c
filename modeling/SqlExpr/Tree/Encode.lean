import SqlExpr.Expr.Basic
import SqlExpr.Json.Basic

/-!
Expressions as JSON trees: a node is an object with its kind as the only key, or the kind alone if
it has no parts.
-/

namespace SqlExpr

namespace Tree

def tagged (tag : String) (held : Json) : Json :=
  .object [(tag, held)]

def optional (encode : α → Json) : Option α → Json
  | none => .null
  | some part => encode part

/-- A float that is no finite number has no place in JSON and is lost as null. -/
def float (x : Float) : Json :=
  if x.isFinite then .number (.float x) else .null

def natural (n : Nat) : Json :=
  .number (.integer (.ofNat n))

end Tree

open SqlExpr.Tree

def Value.toJson : Value → Json
  | .null => .string "Null"
  | .boolean truth => tagged "Boolean" (.bool truth)
  | .integer n => tagged "Integer" (.number (.integer n))
  | .float x => tagged "Float" (Tree.float x)
  | .string text => tagged "String" (.string text)
  | .blob bytes => tagged "Blob" (.array (bytes.map fun byte => natural byte.toNat))

def Pattern.toJson : Pattern → Json
  | .literal text flag =>
    tagged "Literal" (.object [("text", .string text), ("case_insensitive", .bool flag)])
  | .regex source flag =>
    tagged "Regex" (.object [("source", .string source), ("case_insensitive", .bool flag)])

def truthJson : Option Bool → Json :=
  optional .bool

def complexJson (family : Family) (op : Operator) (args : List Json) : Json :=
  .object [("family", .string family.name), ("op", .string op.name), ("args", .array args)]

namespace Expr

mutual

def toJson : Expr → Json
  | value v => tagged "Value" v.toJson
  | list items => tagged "List" (.array (toJsons items))
  | conditions kind pairs =>
    tagged "Conditions" (.object [("kind", .string kind.name), ("pairs", .array (pairJsons pairs))])
  | subquery sql => tagged "Subquery" (.object [("sql", .string sql)])
  | pattern p => tagged "Pattern" p.toJson
  | identifier name => tagged "Identifier" (.object [("value", .string name)])
  | qualified table column =>
    tagged "Qualified" (.object [("table", table.toJson), ("column", column.toJson)])
  | columnAll table => tagged "ColumnAll" (.object [("table", table.toJson)])
  | aliased expr label columns =>
    tagged "Aliased" (.object [("expression", expr.toJson), ("alias", .string label),
      ("columns", optional (fun names => .array (names.map .string)) columns)])
  | complex family op args => tagged "Complex" (complexJson family op (toJsons args))
  | call name args distinct star =>
    tagged "Function" (.object [("name", .string name), ("args", .array (toJsons args)),
      ("distinct", .bool distinct), ("star", .bool star)])
  | cast expr typeName =>
    tagged "Cast" (.object [("expr", expr.toJson), ("type_name", .string typeName)])
  | subscript expr indices =>
    tagged "Subscript" (.object [("expr", expr.toJson), ("indices", .array (toJsons indices))])
  | caseWhen branches otherwise subject =>
    tagged "Case" (.object [("conditions", .array (pairJsons branches)),
      ("else_result", otherwise.toJson), ("subject", optionJson subject)])
  | ordered expr descending nulls =>
    tagged "Ordered" (.object [("expression", expr.toJson), ("descending", .bool descending),
      ("nulls", optional (fun nulls => .string nulls.name) nulls)])
  | constant c => tagged "Constant" (.string c.name)
  | isConstant truth => tagged "BooleanConstant" (truthJson truth)
  | isNotConstant truth => tagged "NegativeBooleanConstant" (truthJson truth)
  | literal sql => tagged "Literal" (.object [("sql", .string sql)])
  | placeholder template args parenthesize =>
    tagged "Placeholder" (.object [("template", .string template), ("args", argsJson args),
      ("parenthesize", .bool parenthesize)])
  | join kind table label condition =>
    tagged "Join" (.object [("join_type", .string kind.name), ("table", table.toJson),
      ("table_alias", optional .string label), ("condition", conditionJson condition)])

def toJsons : List Expr → List Json
  | [] => []
  | e :: rest => e.toJson :: toJsons rest

def pairJsons : List (Expr × Expr) → List Json
  | [] => []
  | (k, v) :: rest => .array [k.toJson, v.toJson] :: pairJsons rest

def optionJson : Option Expr → Json
  | none => .null
  | some e => e.toJson

def namedJsons : List (String × Expr) → List Json
  | [] => []
  | (name, e) :: rest => .array [.string name, e.toJson] :: namedJsons rest

def argsJson : PlaceholderArgs Expr → Json
  | .positional args => tagged "Positional" (.array (toJsons args))
  | .named args => tagged "Named" (.array (namedJsons args))

def conditionJson : JoinCondition Expr → Json
  | .unconstrained => .string "None"
  | .onPredicate predicate => tagged "On" predicate.toJson
  | .usingColumns columns => tagged "Using" (.array (toJsons columns))

end

end Expr

end SqlExpr
