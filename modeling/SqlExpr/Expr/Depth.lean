import SqlExpr.Expr.Basic

/-!
The depth of an expression: the number of nodes on a longest path into it.
-/

namespace SqlExpr.Expr

mutual

def depth : Expr → Nat
  | list items => depthAll items + 1
  | conditions _ pairs => depthPairs pairs + 1
  | qualified table column => max table.depth column.depth + 1
  | columnAll table => table.depth + 1
  | aliased expr _ _ => expr.depth + 1
  | complex _ _ args => depthAll args + 1
  | call _ args _ _ => depthAll args + 1
  | cast expr _ => expr.depth + 1
  | subscript expr indices => max expr.depth (depthAll indices) + 1
  | caseWhen branches otherwise subject =>
    max (depthPairs branches) (max otherwise.depth (depthOption subject)) + 1
  | ordered expr _ _ => expr.depth + 1
  | placeholder _ args _ => depthArgs args + 1
  | join _ table _ condition => max table.depth (depthCondition condition) + 1
  | _ => 1

def depthAll : List Expr → Nat
  | [] => 0
  | e :: rest => max e.depth (depthAll rest)

def depthPairs : List (Expr × Expr) → Nat
  | [] => 0
  | (k, v) :: rest => max (max k.depth v.depth) (depthPairs rest)

def depthOption : Option Expr → Nat
  | none => 0
  | some e => e.depth

def depthNamed : List (String × Expr) → Nat
  | [] => 0
  | (_, e) :: rest => max e.depth (depthNamed rest)

def depthArgs : PlaceholderArgs Expr → Nat
  | .positional args => depthAll args
  | .named args => depthNamed args

def depthCondition : JoinCondition Expr → Nat
  | .unconstrained => 0
  | .onPredicate predicate => predicate.depth
  | .usingColumns columns => depthAll columns

end

end SqlExpr.Expr
