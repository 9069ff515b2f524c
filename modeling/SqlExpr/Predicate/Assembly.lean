import SqlExpr.Error

/-!
Putting an operator on operands. The operands are checked as they are given; condition specifiers
among them then stand for their predicates, and nodes of the same operator are spliced into one.
-/

namespace SqlExpr

/-- An operand as it is given, and the expression that it stands for. -/
structure Operand where
  given : Expr
  resolved : Thunk (Except Error Expr)

def Operand.plain (e : Expr) : Operand :=
  ⟨e, Thunk.mk fun _ => .ok e⟩

@[simp] theorem Operand.resolved_plain (e : Expr) : (plain e).resolved.get = .ok e := rfl

structure Predicate where
  op : Operator
  args : List Expr

def Predicate.toExpr (p : Predicate) : Expr :=
  .complex .boolean p.op p.args

def Predicate.toOperand (p : Predicate) : Operand :=
  .plain p.toExpr

/-- Orderings, bitwise operators and the scalar families refuse operands with a truth value. -/
def refusesTruth (family : Family) (op : Operator) : Bool :=
  family.wantsScalars || op.isOrdering || op.isBitwise

def checkOperands (family : Family) (op : Operator) (given : List Expr) : Except Error Unit :=
  if refusesTruth family op && given.any Expr.isBooleanTyped then .error (.booleanOperand op)
  else if op.arity.accepts given.length then .ok ()
  else .error (.operandCount op given.length)

/-- What the operands stand for. A membership test keeps its list of values as given. -/
def settle (op : Operator) : List Operand → Except Error (List Expr)
  | [] => .ok []
  | first :: others => do
    let head ← first.resolved.get
    let tail ← others.mapM fun o => if op.isMembership then .ok o.given else o.resolved.get
    return head :: tail

/-- The operand of a NOOP node, and any other expression itself. -/
def withoutNoop : Expr → Expr
  | .complex _ .noop [e] => e
  | e => e

/-- The operands that an operand contributes: those of its own if it is a node of the same operator
that may be regrouped. Subtraction and division regroup to the left only. -/
def spliced (op : Operator) (leading : Bool) (operand : Expr) : List Expr :=
  match withoutNoop operand with
  | .complex family inner args =>
    if inner = op ∧ (op.isAssociative ∨ leading) then args else [.complex family inner args]
  | e => [e]

def flatten (op : Operator) : List Expr → List Expr
  | [] => []
  | first :: others => spliced op true first ++ others.flatMap (spliced op false)

def assemble (family : Family) (op : Operator) (operands : List Operand) :
    Except Error (List Expr) := do
  checkOperands family op (operands.map (·.given))
  let args ← settle op operands
  return if op.arity = .many then flatten op args else args

namespace Predicate

def assemble (op : Operator) (operands : List Operand) : Except Error Predicate := do
  return ⟨op, ← SqlExpr.assemble .boolean op operands⟩

/-- Joins predicates by a connective; a single one stays as it is. -/
def join (connective : Operator) : List Predicate → Except Error Predicate
  | [p] => .ok p
  | ps => assemble connective (ps.map toOperand)

end Predicate

end SqlExpr
