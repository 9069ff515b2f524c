import SqlExpr.Predicate.Assembly

/-!
Logical negation. AND and OR change places and their operands are negated, operators with a
counterpart give way to it, constants change sides and other leaves are wrapped in NOT. How
condition specifiers inside a node are read is left open here.
-/

namespace SqlExpr

/-- The reading of condition specifiers: the expression that one stands for as an operand, and the
negation of the pairs of one. -/
structure SpecifierReading where
  resolve : Expr → Except Error Expr
  negate : List (Expr × Expr) → Except Error Expr

namespace SpecifierReading

def absent : SpecifierReading :=
  ⟨.ok, fun pairs => .error (.notInvertible (.conditions .pairs pairs))⟩

def operand (reading : SpecifierReading) (e : Expr) : Operand :=
  ⟨e, Thunk.mk fun _ => reading.resolve e⟩

def predicate (reading : SpecifierReading) (op : Operator) (args : List Expr) :
    Except Error Predicate :=
  Predicate.assemble op (args.map reading.operand)

/-- The node of the operator's counterpart: on the negated operands for AND and OR, on the same
operands otherwise. -/
def swap (reading : SpecifierReading) (family : Family) (op : Operator) (args : List Expr)
    (negated : Thunk (Except Error (List Expr))) : Except Error Predicate :=
  match op.counterpart with
  | some other =>
    if op = .and ∨ op = .or then do reading.predicate other (← negated.get)
    else reading.predicate other args
  | none => .error (.noCounterpart family op args)

mutual

def invert (reading : SpecifierReading) : Expr → Except Error Expr
  | .complex family op args =>
    if family.wantsScalars then .error (.notInvertible (.complex family op args))
    else do
      return (← reading.swap family op args (Thunk.mk fun _ => invertAll reading args)).toExpr
  | .isConstant (some truth) => .ok (.isConstant (some !truth))
  | .isConstant none => .ok (.isNotConstant none)
  | .isNotConstant truth => .ok (.isConstant truth)
  | .conditions _ pairs => reading.negate pairs
  | .list items =>
    if Expr.arePairs items then reading.negate (items.filterMap Expr.pair?)
    else .error (.notInvertible (.list items))
  | .pattern p => .error (.notInvertible (.pattern p))
  | .columnAll table => .error (.notInvertible (.columnAll table))
  | .aliased expr label columns => .error (.notInvertible (.aliased expr label columns))
  | .ordered expr descending nulls => .error (.notInvertible (.ordered expr descending nulls))
  | .constant c => .error (.notInvertible (.constant c))
  | .join kind table label condition => .error (.notInvertible (.join kind table label condition))
  | leaf => do return (← reading.predicate .not [leaf]).toExpr

def invertAll (reading : SpecifierReading) : List Expr → Except Error (List Expr)
  | [] => .ok []
  | e :: rest => do
    let head ← invert reading e
    let tail ← invertAll reading rest
    return head :: tail

end

def invertNode (reading : SpecifierReading) (family : Family) (op : Operator) (args : List Expr) :
    Except Error Predicate :=
  reading.swap family op args (Thunk.mk fun _ => reading.invertAll args)

end SpecifierReading

def Predicate.opposite (p : Predicate) : Except Error Predicate :=
  SpecifierReading.absent.invertNode .boolean p.op p.args

end SqlExpr
