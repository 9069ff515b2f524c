import SqlExpr.Conditions
import SqlExpr.Predicate.Comparison
import SqlExpr.Predicate.Inversion

/-!
The predicates of condition specifiers. Each pair of a key and a value is one predicate, chosen by
the shape of the value; a mapping as value applies its operators to each column of the key. Keys and
values are operands in turn and may be specifiers themselves.
-/

namespace SqlExpr

/-- The value of an operator in a mapping: as one operand, and the operands that it lists. -/
structure Argument where
  whole : Operand
  items : Option (List Operand)

namespace Predicate

def ofArgument (column : Operand) (named : NamedOperator) (arg : Argument) :
    Except Error Predicate :=
  match named with
  | .between negated =>
    match arg.items with
    | some [low, high] => do
      let p ← bounded column low high
      if negated then p.opposite else .ok p
    | _ => .error (.invalidArgument .betweenBounds)
  | .matching caseInsensitive negated => do
    let p ← matching column (arg.items.getD [arg.whole]) caseInsensitive
    if negated then p.opposite else .ok p
  | .plain op => assemble op [column, arg.whole]

def columnOperands (key : Operand) : List Operand :=
  if key.given.isSpecifier then [key] else key.given.columns.map .plain

end Predicate

mutual

/-- What an expression stands for as an operand: a specifier for its pairs joined by AND, any other
expression for itself. -/
def Expr.resolve : Expr → Except Error Expr
  | .conditions _ pairs => do return (← Predicate.join .and (← predicates pairs)).toExpr
  | .list items =>
    if Expr.arePairs items then do return (← Predicate.join .and (← itemPredicates items)).toExpr
    else .ok (.list items)
  | e => .ok e

def predicates : List (Expr × Expr) → Except Error (List Predicate)
  | [] => .ok []
  | (k, v) :: rest => do
    let p ← pairPredicate ⟨k, Thunk.mk fun _ => k.resolve⟩ v
    let ps ← predicates rest
    return p :: ps

def itemPredicates : List Expr → Except Error (List Predicate)
  | [] => .ok []
  | .list [k, v] :: rest => do
    let p ← pairPredicate ⟨k, Thunk.mk fun _ => k.resolve⟩ v
    let ps ← itemPredicates rest
    return p :: ps
  | _ :: rest => itemPredicates rest

def pairPredicate (key : Operand) : Expr → Except Error Predicate
  | .list items => Predicate.assemble .isIn [key, .plain (.list items)]
  | .subquery sql => Predicate.assemble .isIn [key, .plain (.subquery sql)]
  | .conditions .pairs pairs =>
    Predicate.assemble .isIn [key, .plain (Conditions.asList ⟨.pairs, pairs⟩)]
  | .conditions .mapping operators => do
    let ps ← (Predicate.columnOperands key).mapM fun column => do
      Predicate.join .and (← operatorPredicates column operators)
    Predicate.join .and ps
  | .isNotConstant truth => Predicate.assemble .isNot [key, .plain (.value (.ofTruth truth))]
  | .isConstant truth => Predicate.assemble .is [key, .plain (.value (.ofTruth truth))]
  | .value v => Predicate.assemble (if v.isBooleanLike then .is else .eq) [key, .plain (.value v)]
  | .pattern p => Predicate.matching key [.plain (.pattern p)] false
  | v => Predicate.assemble .eq [key, .plain v]

/-- One predicate for each entry of an operator mapping on a column. A mapping in it belongs to the
columns of that name below this one. -/
def operatorPredicates (column : Operand) : List (Expr × Expr) → Except Error (List Predicate)
  | [] => .ok []
  | (name, .conditions .mapping inner) :: rest => do
    let below ← name.columns.mapM fun sub => do
      Predicate.join .and (← operatorPredicates (.plain (.qualify column.given sub)) inner)
    let p ← Predicate.join .and below
    let ps ← operatorPredicates column rest
    return p :: ps
  | (name, v) :: rest => do
    let named ← NamedOperator.ofName (← NamedOperator.nameOf name)
    let p ← Predicate.ofArgument column named
      ⟨⟨v, Thunk.mk fun _ => v.resolve⟩, listedOperands v⟩
    let ps ← operatorPredicates column rest
    return p :: ps

def listedOperands : Expr → Option (List Operand)
  | .list items => some (operands items)
  | _ => none

def operands : List Expr → List Operand
  | [] => []
  | e :: rest => ⟨e, Thunk.mk fun _ => e.resolve⟩ :: operands rest

end

namespace Operand

def of (e : Expr) : Operand :=
  ⟨e, Thunk.mk fun _ => e.resolve⟩

@[simp] theorem given_of (e : Expr) : (of e).given = e := rfl

@[simp] theorem resolved_of (e : Expr) : (of e).resolved.get = e.resolve := rfl

end Operand

namespace Predicate

def ofPair (k v : Expr) : Except Error Predicate :=
  pairPredicate (.of k) v

def apply (op : Operator) (args : List Expr) : Except Error Predicate :=
  assemble op (args.map .of)

def ofOperators (column : Expr) (operators : List (Expr × Expr)) : Except Error Predicate := do
  join .and (← operatorPredicates (.of column) operators)

def ofName (column : Expr) (name : String) (v : Expr) : Except Error Predicate := do
  ofArgument (.of column) (← NamedOperator.ofName name) ⟨.of v, listedOperands v⟩

def between (e low high : Expr) : Except Error Predicate :=
  bounded (.of e) (.of low) (.of high)

def like (subject : Expr) (candidates : List Expr) (caseInsensitive : Bool) :
    Except Error Predicate :=
  matching (.of subject) (candidates.map .of) caseInsensitive

end Predicate

def Expr.apply (family : Family) (op : Operator) (args : List Expr) : Except Error Expr := do
  return .complex family op (← assemble family op (args.map .of))

end SqlExpr
