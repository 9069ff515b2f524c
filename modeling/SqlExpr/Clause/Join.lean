import SqlExpr.Predicate.Synthesis

/-!
Joins of a table, on a predicate or by columns of the same name.
-/

namespace SqlExpr.Expr

def joinOn (kind : JoinKind) (table condition : Expr) : Except Error Expr := do
  return join kind table none (.onPredicate (← condition.resolve))

def joinUsing (kind : JoinKind) (table : Expr) (columns : List Expr) : Except Error Expr :=
  if columns.isEmpty then .error (.invalidArgument .noJoinColumns)
  else .ok (join kind table none (.usingColumns columns))

end SqlExpr.Expr
