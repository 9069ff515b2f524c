import SqlExpr.Expr.NodeText

/-!
Why an expression cannot be built, negated or written, and the message of each cause.
-/

namespace SqlExpr

inductive Misuse where
  | betweenBounds
  | operatorKey
  | caseConditions
  | noBranches
  | unnamedFunction
  | functionName (node : Expr)
  | noJoinColumns
  | notConditions

inductive Mismatch where
  | tooFewArguments
  | unusedArguments (count : Nat)
  | unknownName (name : String)
  | unusedNames (names : List String)

inductive Error where
  | unknownOperator (symbol : String)
  | operandCount (op : Operator) (actual : Nat)
  /-- An operand with a truth value where a scalar is needed. -/
  | booleanOperand (op : Operator)
  /-- A numeric or string expression joined by AND or OR. -/
  | nonBooleanOperand (op : Operator)
  /-- A string expression in arithmetic. -/
  | stringOperand (op : Operator)
  | notInvertible (node : Expr)
  | noCounterpart (family : Family) (op : Operator) (args : List Expr)
  | invalidArgument (misuse : Misuse)
  | placeholderMismatch (template : String) (mismatch : Mismatch)

def Misuse.message : Misuse → String
  | betweenBounds => "between requires a list of exactly two bounds"
  | operatorKey => "operator keys must be names or symbols"
  | caseConditions => "CASE conditions must be a mapping or a list of pairs"
  | noBranches => "CASE requires at least one WHEN branch"
  | unnamedFunction => "function call requires a name"
  | functionName node => "function name must be an identifier, got " ++ node.nodeText
  | noJoinColumns => "USING join requires at least one column"
  | notConditions => "conditions must be a JSON object or an array of [column, value] pairs"

def Mismatch.message : Mismatch → String
  | tooFewArguments => "not enough arguments"
  | unusedArguments count => toString count ++ " unused argument(s)"
  | unknownName name => "no argument named " ++ name
  | unusedNames names => "unused argument(s) " ++ ", ".intercalate names

def Error.message : Error → String
  | unknownOperator symbol => "Invalid operator " ++ symbol
  | operandCount op actual =>
    "The " ++ op.symbol ++ " operator requires " ++ op.arity.requirement ++ " argument(s), got " ++
      toString actual
  | booleanOperand op =>
    "cannot apply " ++ op.symbol ++ " to a boolean, null, array or mapping operand"
  | nonBooleanOperand op => "cannot apply " ++ op.symbol ++ " to a non-boolean expression"
  | stringOperand op => "cannot apply " ++ op.symbol ++ " to a string expression"
  | notInvertible node => "cannot invert " ++ node.nodeText
  | noCounterpart family op args =>
    "cannot invert " ++
      NodeText.tagged "BooleanExpression" (complexText family op (Expr.nodeTexts args))
  | invalidArgument misuse => "Invalid argument: " ++ misuse.message
  | placeholderMismatch template mismatch =>
    "Placeholder mismatch in '" ++ template ++ "': " ++ mismatch.message

end SqlExpr
