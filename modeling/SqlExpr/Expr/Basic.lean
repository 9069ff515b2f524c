import SqlExpr.Operator

/-!
Expressions: the closed set of nodes that can stand as an operand or as part of a clause.
-/

namespace SqlExpr

inductive Value where
  | null
  | boolean (truth : Bool)
  | integer (n : Int64)
  | float (x : Float)
  | string (text : String)
  | blob (bytes : List UInt8)

/-- A pattern with its own case flag: text for LIKE or the source of a regular expression. -/
inductive Pattern where
  | literal (text : String) (caseInsensitive : Bool)
  | regex (source : String) (caseInsensitive : Bool)
  deriving DecidableEq, Repr

/-- What kind of value an operator node is declared to yield. -/
inductive Family where
  | generic
  | boolean
  | numeric
  | string
  deriving DecidableEq, Repr

/-- Conditions keyed uniquely, or ordered pairs with any keys. -/
inductive ConditionsKind where
  | mapping
  | pairs
  deriving DecidableEq, Repr

inductive NullsPlacement where
  | first
  | last
  deriving DecidableEq, Repr

inductive NamedConstant where
  | currentDate
  | currentTime
  | currentTimestamp
  deriving DecidableEq, Repr

inductive JoinKind where
  | inner | left | right | full | cross
  | natural | naturalLeft | naturalRight | naturalFull
  deriving DecidableEq, Repr

inductive JoinCondition (α : Type) where
  | unconstrained
  | onPredicate (predicate : α)
  | usingColumns (columns : List α)

/-- Arguments of an SQL template, for its marks in order or by name. -/
inductive PlaceholderArgs (α : Type) where
  | positional (args : List α)
  | named (args : List (String × α))

inductive Expr where
  | value (v : Value)
  | list (items : List Expr)
  | conditions (kind : ConditionsKind) (pairs : List (Expr × Expr))
  | subquery (sql : String)
  | pattern (p : Pattern)
  | identifier (name : String)
  | qualified (table column : Expr)
  | columnAll (table : Expr)
  | aliased (expr : Expr) (label : String) (columns : Option (List String))
  | complex (family : Family) (op : Operator) (args : List Expr)
  | call (name : String) (args : List Expr) (distinct star : Bool)
  | cast (expr : Expr) (typeName : String)
  | subscript (expr : Expr) (indices : List Expr)
  | caseWhen (branches : List (Expr × Expr)) (otherwise : Expr) (subject : Option Expr)
  | ordered (expr : Expr) (descending : Bool) (nulls : Option NullsPlacement)
  | constant (c : NamedConstant)
  /-- TRUE, FALSE or NULL, compared with IS. -/
  | isConstant (truth : Option Bool)
  /-- NOT TRUE, NOT FALSE or NOT NULL, compared with IS NOT. -/
  | isNotConstant (truth : Option Bool)
  | literal (sql : String)
  | placeholder (template : String) (args : PlaceholderArgs Expr) (parenthesize : Bool)
  | join (kind : JoinKind) (table : Expr) (label : Option String) (condition : JoinCondition Expr)

instance : Inhabited Expr := ⟨.value .null⟩

structure Conditions where
  kind : ConditionsKind
  pairs : List (Expr × Expr)

def Conditions.toExpr (c : Conditions) : Expr :=
  .conditions c.kind c.pairs

def Value.ofTruth : Option Bool → Value
  | some truth => .boolean truth
  | none => .null

def Value.isBooleanLike : Value → Bool
  | .null | .boolean _ => true
  | _ => false

namespace Pattern

def text : Pattern → String
  | literal text _ => text
  | regex source _ => source

def isRegex : Pattern → Bool
  | literal .. => false
  | regex .. => true

def isCaseInsensitive : Pattern → Bool
  | literal _ flag | regex _ flag => flag

/-- Reads `/source/` and `/source/i`; any other text is a literal that minds case. -/
def ofText (text : String) : Pattern :=
  match text.toList with
  | '/' :: body =>
    match body.reverse with
    | 'i' :: '/' :: source => regex (String.ofList source.reverse) true
    | '/' :: source => regex (String.ofList source.reverse) false
    | _ => literal text false
  | _ => literal text false

def operator (regex caseInsensitive : Bool) : Operator :=
  match regex, caseInsensitive with
  | true, true => .regexCi
  | true, false => .regex
  | false, true => .ilike
  | false, false => .like

end Pattern

namespace Family

def wantsScalars : Family → Bool
  | numeric | string => true
  | generic | boolean => false

def name : Family → String
  | generic => "Generic"
  | boolean => "Boolean"
  | numeric => "Numeric"
  | string => "String"

end Family

def ConditionsKind.name : ConditionsKind → String
  | .mapping => "Mapping"
  | .pairs => "Pairs"

namespace NullsPlacement

def reversed : NullsPlacement → NullsPlacement
  | first => last
  | last => first

def name : NullsPlacement → String
  | first => "First"
  | last => "Last"

end NullsPlacement

namespace NamedConstant

def sql : NamedConstant → String
  | currentDate => "CURRENT_DATE"
  | currentTime => "CURRENT_TIME"
  | currentTimestamp => "CURRENT_TIMESTAMP"

def name : NamedConstant → String
  | currentDate => "CurrentDate"
  | currentTime => "CurrentTime"
  | currentTimestamp => "CurrentTimestamp"

end NamedConstant

namespace JoinKind

def sql : JoinKind → String
  | inner => "INNER JOIN"
  | left => "LEFT OUTER JOIN"
  | right => "RIGHT OUTER JOIN"
  | full => "FULL OUTER JOIN"
  | cross => "CROSS JOIN"
  | natural => "NATURAL JOIN"
  | naturalLeft => "NATURAL LEFT JOIN"
  | naturalRight => "NATURAL RIGHT JOIN"
  | naturalFull => "NATURAL FULL JOIN"

def name : JoinKind → String
  | inner => "Inner"
  | left => "Left"
  | right => "Right"
  | full => "Full"
  | cross => "Cross"
  | natural => "Natural"
  | naturalLeft => "NaturalLeft"
  | naturalRight => "NaturalRight"
  | naturalFull => "NaturalFull"

end JoinKind

namespace Expr

def family : Expr → Option Family
  | complex family _ _ => some family
  | _ => none

/-- Operands that carry a truth value rather than a scalar: TRUE, FALSE and NULL, lists, conditions
and boolean expressions. -/
def isBooleanTyped : Expr → Bool
  | value v => v.isBooleanLike
  | list _ | conditions .. | isConstant _ | isNotConstant _ => true
  | complex .boolean .. => true
  | _ => false

def isNumericOrString (e : Expr) : Bool :=
  e.family == some .numeric || e.family == some .string

def isPair : Expr → Bool
  | list [_, _] => true
  | _ => false

def pair? : Expr → Option (Expr × Expr)
  | list [k, v] => some (k, v)
  | _ => none

def ofPair (pair : Expr × Expr) : Expr :=
  list [pair.1, pair.2]

/-- A list of items that reads as conditions: not empty, and each item is a list of two. -/
def arePairs (items : List Expr) : Bool :=
  !items.isEmpty && items.all isPair

def isSpecifier : Expr → Bool
  | conditions .. => true
  | list items => arePairs items
  | _ => false

end Expr

end SqlExpr
