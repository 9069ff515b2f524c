import SqlExpr.Predicate.Synthesis

/-!
Numbers, strings and what is taken from values: arithmetic, casts, subscripts and calls.
-/

namespace SqlExpr.Expr

def arithmetic (op : Operator) (args : List Expr) : Except Error Expr :=
  if args.any (·.family == some .string) then .error (.stringOperand op)
  else apply .numeric op args

def concatenation (left right : Expr) : Except Error Expr :=
  apply .string .concat [left, right]

def castNumeric (e : Expr) (typeName : Option String) : Except Error Expr :=
  apply .numeric .noop [.cast e (typeName.getD "integer")]

def castString (e : Expr) (typeName : Option String) : Except Error Expr :=
  apply .string .noop [.cast e (typeName.getD "varchar(255)")]

mutual

/-- The indices with those in lists, however deep, in their place. -/
def flatIndex : Expr → List Expr
  | list items => flatIndices items
  | e => [e]

def flatIndices : List Expr → List Expr
  | [] => []
  | e :: rest => flatIndex e ++ flatIndices rest

end

def index (e : Expr) (indices : List Expr) : Expr :=
  subscript e (flatIndices indices)

def callOf : List Expr → Except Error Expr
  | [] => .error (.invalidArgument .unnamedFunction)
  | identifier name :: args => .ok (call name args false false)
  | value (.string name) :: args => .ok (call name args false false)
  | other :: _ => .error (.invalidArgument (.functionName other))

end SqlExpr.Expr
