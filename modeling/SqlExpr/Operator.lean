import SqlExpr.Text.Blank

/-!
Operators: how each is spelled, how many operands it takes and which operator negates it.
-/

namespace SqlExpr

inductive Arity where
  | one
  | two
  | many
  deriving DecidableEq, Repr

namespace Arity

def accepts : Arity → Nat → Bool
  | one, count => count == 1
  | two, count => count == 2
  | many, count => 1 ≤ count

def requirement : Arity → String
  | one => "exactly 1"
  | two => "exactly 2"
  | many => "at least 1"

end Arity

inductive Operator where
  | and | or | concat | add | sub | mul | div
  | eq | neq | lt | gt | lte | gte
  | like | notLike | ilike | notILike | regex | notRegex | regexCi | notRegexCi
  | isIn | notIn | is | isNot
  | bitAnd | bitOr | bitXor | shiftLeft | shiftRight | modulo | power
  | not | noop | bitNot
  deriving DecidableEq, Repr

namespace Operator

def all : List Operator :=
  [and, or, concat, add, sub, mul, div, eq, neq, lt, gt, lte, gte, like, notLike, ilike, notILike,
   regex, notRegex, regexCi, notRegexCi, isIn, notIn, is, isNot, bitAnd, bitOr, bitXor, shiftLeft,
   shiftRight, modulo, power, not, noop, bitNot]

theorem mem_all (op : Operator) : op ∈ all := by
  cases op <;> decide

def arity : Operator → Arity
  | and | or | concat | add | sub | mul | div => .many
  | not | noop | bitNot => .one
  | _ => .two

/-- The operator whose truth value is the negation of this one's. AND and OR stand for each other
when their operands are negated too. -/
def counterpart : Operator → Option Operator
  | and => some or
  | or => some and
  | lt => some gte
  | gte => some lt
  | gt => some lte
  | lte => some gt
  | eq => some neq
  | neq => some eq
  | like => some notLike
  | notLike => some like
  | ilike => some notILike
  | notILike => some ilike
  | regex => some notRegex
  | notRegex => some regex
  | regexCi => some notRegexCi
  | notRegexCi => some regexCi
  | isIn => some notIn
  | notIn => some isIn
  | is => some isNot
  | isNot => some is
  | not => some noop
  | noop => some not
  | _ => none

theorem counterpart_counterpart {op other : Operator} (h : op.counterpart = some other) :
    other.counterpart = some op := by
  cases op <;> simp_all [counterpart] <;> subst h <;> rfl

def isMembership : Operator → Bool
  | isIn | notIn => true
  | _ => false

/-- Operators whose operands may be regrouped. -/
def isAssociative : Operator → Bool
  | and | or | concat | add | mul => true
  | _ => false

def isBitwise : Operator → Bool
  | bitAnd | bitOr | bitXor | shiftLeft | shiftRight | bitNot => true
  | _ => false

def isOrdering : Operator → Bool
  | lt | gt | lte | gte => true
  | _ => false

def symbol : Operator → String
  | and => "AND"
  | or => "OR"
  | concat => "||"
  | add => "+"
  | sub => "-"
  | mul => "*"
  | div => "/"
  | eq => "="
  | neq => "!="
  | lt => "<"
  | gt => ">"
  | lte => "<="
  | gte => ">="
  | like => "LIKE"
  | notLike => "NOT LIKE"
  | ilike => "ILIKE"
  | notILike => "NOT ILIKE"
  | regex => "~"
  | notRegex => "!~"
  | regexCi => "~*"
  | notRegexCi => "!~*"
  | isIn => "IN"
  | notIn => "NOT IN"
  | is => "IS"
  | isNot => "IS NOT"
  | bitAnd => "&"
  | bitOr => "|"
  | bitXor => "^"
  | shiftLeft => "<<"
  | shiftRight => ">>"
  | modulo => "%"
  | power => "**"
  | not => "NOT"
  | noop => "NOOP"
  | bitNot => "B~"

def name : Operator → String
  | and => "And"
  | or => "Or"
  | concat => "Concat"
  | add => "Add"
  | sub => "Sub"
  | mul => "Mul"
  | div => "Div"
  | eq => "Eq"
  | neq => "Neq"
  | lt => "Lt"
  | gt => "Gt"
  | lte => "Lte"
  | gte => "Gte"
  | like => "Like"
  | notLike => "NotLike"
  | ilike => "ILike"
  | notILike => "NotILike"
  | regex => "Regex"
  | notRegex => "NotRegex"
  | regexCi => "RegexCi"
  | notRegexCi => "NotRegexCi"
  | isIn => "In"
  | notIn => "NotIn"
  | is => "Is"
  | isNot => "IsNot"
  | bitAnd => "BitAnd"
  | bitOr => "BitOr"
  | bitXor => "BitXor"
  | shiftLeft => "ShiftLeft"
  | shiftRight => "ShiftRight"
  | modulo => "Modulo"
  | power => "Power"
  | not => "Not"
  | noop => "Noop"
  | bitNot => "BitNot"

def ofName? (name : String) : Option Operator :=
  all.find? (·.name == name)

/-- The operator of a symbol, whose case (of ASCII letters) and surrounding blanks do not matter. -/
def ofSymbol? (symbol : String) : Option Operator :=
  let wanted := (Text.trim symbol.toList).map Char.toLower
  all.find? fun op => op.symbol.toList.map Char.toLower == wanted

theorem ofName?_name (op : Operator) : ofName? op.name = some op := by
  cases op <;> decide +kernel

theorem ofSymbol?_symbol (op : Operator) : ofSymbol? op.symbol = some op := by
  cases op <;> decide +kernel

end Operator

end SqlExpr
