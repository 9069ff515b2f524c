import SqlExpr.Predicate.Negation

/-!
Predicates of operands that have to be of a fitting kind: what is joined may not be a number or a
string, what is compared may not carry a truth value.
-/

namespace SqlExpr.Predicate

/-- AND or OR; numeric and string expressions are refused. -/
def connect (op : Operator) (left right : Expr) : Except Error Predicate :=
  if left.isNumericOrString || right.isNumericOrString then .error (.nonBooleanOperand op)
  else apply op [left, right]

def compare (op : Operator) (left right : Expr) : Except Error Predicate :=
  if left.isBooleanTyped || right.isBooleanTyped then .error (.booleanOperand op)
  else apply op [left, right]

def compareBetween (e low high : Expr) : Except Error Predicate :=
  if low.isBooleanTyped || high.isBooleanTyped then .error (.booleanOperand .gte)
  else between e low high

/-- The negation as a boolean node; what is none is wrapped in NOOP. -/
def negation (e : Expr) : Except Error Predicate := do
  match ← e.invert with
  | .complex .boolean op args => apply op args
  | other => apply .noop [other]

end SqlExpr.Predicate
