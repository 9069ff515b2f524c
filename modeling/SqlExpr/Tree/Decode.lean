import SqlExpr.Expr.Basic
import SqlExpr.Json.Basic

/-!
Reading an expression back from its JSON tree. Nothing is checked or rebuilt beyond the shape: a
tree that no builder makes is read as it stands. The parts of a node are named fields, other fields
are passed over, and an optional part may be missing; they may also stand in an array in their
order.
-/

namespace SqlExpr.Tree

/-- A kind and what it holds, if it holds anything. -/
def variant? : Json → Option (String × Option Json)
  | .string tag => some (tag, none)
  | .object [(tag, held)] => some (tag, some held)
  | _ => none

/-- The parts of a node by name. In an array there are as many as the names. -/
def parts? (names : List String) : Json → Option (List (String × Json))
  | .object entries => some entries
  | .array items => if items.length = names.length then some (names.zip items) else none
  | _ => none

def part? (read : Json → Option α) (name : String) (parts : List (String × Json)) : Option α :=
  (parts.lookup name).bind read

def optional? (read : Json → Option α) : Json → Option (Option α)
  | .null => some none
  | held => (read held).map some

/-- A part that is null or missing is none. -/
def optionalPart? (read : Json → Option α) (name : String) (parts : List (String × Json)) :
    Option (Option α) :=
  match parts.lookup name with
  | none => some none
  | some held => optional? read held

def list? (read : Json → Option α) : Json → Option (List α)
  | .array items => items.mapM read
  | _ => none

def pair? {α β : Type} (readFirst : Json → Option α) (readSecond : Json → Option β) :
    Json → Option (α × β)
  | .array [a, b] => do return (← readFirst a, ← readSecond b)
  | _ => none

/-- A kind without parts holds nothing or null. -/
def holdsNothing : Option Json → Bool
  | none | some .null => true
  | _ => false

def named? (all : List α) (name : α → String) (json : Json) : Option α := do
  let (tag, held) ← variant? json
  if holdsNothing held then all.find? (name · == tag) else none

def byte? (json : Json) : Option UInt8 := do
  let n ← json.integer?
  if 0 ≤ n ∧ n < 256 then return n.toInt.toNat.toUInt8 else none

def float? : Json → Option Float
  | .number (.float x) => some x
  | .number (.integer n) => some n.toFloat
  | _ => none

def operator? : Json → Option Operator :=
  named? Operator.all Operator.name

def family? : Json → Option Family :=
  named? [.generic, .boolean, .numeric, .string] Family.name

def conditionsKind? : Json → Option ConditionsKind :=
  named? [.mapping, .pairs] ConditionsKind.name

def nulls? : Json → Option NullsPlacement :=
  named? [.first, .last] NullsPlacement.name

def constant? : Json → Option NamedConstant :=
  named? [.currentDate, .currentTime, .currentTimestamp] NamedConstant.name

def joinKind? : Json → Option JoinKind :=
  named? [.inner, .left, .right, .full, .cross, .natural, .naturalLeft, .naturalRight, .naturalFull]
    JoinKind.name

def value? (json : Json) : Option Value := do
  match ← variant? json with
  | ("Null", held) => if holdsNothing held then some .null else none
  | ("Boolean", some held) => held.bool?.map .boolean
  | ("Integer", some held) => held.integer?.map .integer
  | ("Float", some held) => (float? held).map .float
  | ("String", some held) => held.string?.map .string
  | ("Blob", some held) => (list? byte? held).map .blob
  | _ => none

/-- The parts of a pattern cannot stand in an array. -/
def pattern? (json : Json) : Option Pattern := do
  match ← variant? json with
  | ("Literal", some (.object parts)) =>
    return .literal (← part? Json.string? "text" parts)
      (← part? Json.bool? "case_insensitive" parts)
  | ("Regex", some (.object parts)) =>
    return .regex (← part? Json.string? "source" parts)
      (← part? Json.bool? "case_insensitive" parts)
  | _ => none

def placeholderArgs? (expr? : Json → Option Expr) (json : Json) :
    Option (PlaceholderArgs Expr) := do
  match ← variant? json with
  | ("Positional", some held) => (list? expr? held).map .positional
  | ("Named", some held) => (list? (pair? Json.string? expr?) held).map .named
  | _ => none

def joinCondition? (expr? : Json → Option Expr) (json : Json) : Option (JoinCondition Expr) := do
  match ← variant? json with
  | ("None", held) => if holdsNothing held then some .unconstrained else none
  | ("On", some held) => (expr? held).map .onPredicate
  | ("Using", some held) => (list? expr? held).map .usingColumns
  | _ => none

def partNames : String → List String
  | "Conditions" => ["kind", "pairs"]
  | "Subquery" | "Literal" => ["sql"]
  | "Identifier" => ["value"]
  | "Qualified" => ["table", "column"]
  | "ColumnAll" => ["table"]
  | "Aliased" => ["expression", "alias", "columns"]
  | "Complex" => ["family", "op", "args"]
  | "Function" => ["name", "args", "distinct", "star"]
  | "Cast" => ["expr", "type_name"]
  | "Subscript" => ["expr", "indices"]
  | "Case" => ["conditions", "else_result", "subject"]
  | "Ordered" => ["expression", "descending", "nulls"]
  | "Placeholder" => ["template", "args", "parenthesize"]
  | "Join" => ["join_type", "table", "table_alias", "condition"]
  | _ => []

def ofParts? (expr? : Json → Option Expr) (tag : String) (parts : List (String × Json)) :
    Option Expr := do
  let exprs? := list? expr?
  let pairs? := list? (pair? expr? expr?)
  match tag with
  | "Conditions" =>
    return .conditions (← part? conditionsKind? "kind" parts) (← part? pairs? "pairs" parts)
  | "Subquery" => return .subquery (← part? Json.string? "sql" parts)
  | "Identifier" => return .identifier (← part? Json.string? "value" parts)
  | "Qualified" => return .qualified (← part? expr? "table" parts) (← part? expr? "column" parts)
  | "ColumnAll" => return .columnAll (← part? expr? "table" parts)
  | "Aliased" =>
    return .aliased (← part? expr? "expression" parts) (← part? Json.string? "alias" parts)
      (← optionalPart? (list? Json.string?) "columns" parts)
  | "Complex" =>
    return .complex (← part? family? "family" parts) (← part? operator? "op" parts)
      (← part? exprs? "args" parts)
  | "Function" =>
    return .call (← part? Json.string? "name" parts) (← part? exprs? "args" parts)
      (← part? Json.bool? "distinct" parts) (← part? Json.bool? "star" parts)
  | "Cast" => return .cast (← part? expr? "expr" parts) (← part? Json.string? "type_name" parts)
  | "Subscript" =>
    return .subscript (← part? expr? "expr" parts) (← part? exprs? "indices" parts)
  | "Case" =>
    return .caseWhen (← part? pairs? "conditions" parts) (← part? expr? "else_result" parts)
      (← optionalPart? expr? "subject" parts)
  | "Ordered" =>
    return .ordered (← part? expr? "expression" parts) (← part? Json.bool? "descending" parts)
      (← optionalPart? nulls? "nulls" parts)
  | "Literal" => return .literal (← part? Json.string? "sql" parts)
  | "Placeholder" =>
    return .placeholder (← part? Json.string? "template" parts)
      (← part? (placeholderArgs? expr?) "args" parts) (← part? Json.bool? "parenthesize" parts)
  | "Join" =>
    return .join (← part? joinKind? "join_type" parts) (← part? expr? "table" parts)
      (← optionalPart? Json.string? "table_alias" parts)
      (← part? (joinCondition? expr?) "condition" parts)
  | _ => none

def node? (expr? : Json → Option Expr) (json : Json) : Option Expr := do
  match ← variant? json with
  | ("Value", some held) => (value? held).map .value
  | ("List", some held) => (list? expr? held).map .list
  | ("Pattern", some held) => (pattern? held).map .pattern
  | ("Constant", some held) => (constant? held).map .constant
  | ("BooleanConstant", some held) => (optional? Json.bool? held).map .isConstant
  | ("NegativeBooleanConstant", some held) => (optional? Json.bool? held).map .isNotConstant
  | (tag, some held) => do ofParts? expr? tag (← parts? (partNames tag) held)
  | _ => none

/-- The expression of a tree that is nested to less than the given level. -/
def readWithin? : Nat → Json → Option Expr
  | 0, _ => none
  | level + 1, json => node? (readWithin? level) json

end SqlExpr.Tree

def SqlExpr.Expr.ofJson? (json : SqlExpr.Json) : Option SqlExpr.Expr :=
  SqlExpr.Tree.readWithin? (json.depth + 1) json
