import SqlExpr.Expr.Depth
import SqlExpr.Predicate.Synthesis

/-!
Negation of any expression and the predicate of a whole specifier. A specifier is negated pair by
pair and joined by OR. The predicates of its pairs can hold specifiers of their own only where a
node of the specifier does, one level further in.
-/

namespace SqlExpr

def negatePairs (reading : SpecifierReading) (pairs : List (Expr × Expr)) : Except Error Expr := do
  let ps ← pairs.mapM fun (k, v) => do
    let p ← Predicate.ofPair k v
    reading.invertNode .boolean p.op p.args
  return (← Predicate.join .or ps).toExpr

/-- The reading of specifiers that are nested to at most the given level. -/
def SpecifierReading.nested : Nat → SpecifierReading
  | 0 => { SpecifierReading.absent with resolve := Expr.resolve }
  | level + 1 => ⟨Expr.resolve, negatePairs (nested level)⟩

def Expr.invert (e : Expr) : Except Error Expr :=
  (SpecifierReading.nested e.depth).invert e

def Expr.invertNode (family : Family) (op : Operator) (args : List Expr) :
    Except Error Predicate :=
  (SpecifierReading.nested (depthAll args)).invertNode family op args

namespace Predicate

def inverted (p : Predicate) : Except Error Predicate :=
  Expr.invertNode .boolean p.op p.args

/-- The predicates of the pairs of a specifier, each negated or not, joined by a connective. -/
def ofConditions (c : Conditions) (connective : Operator) (negate : Bool) :
    Except Error Predicate := do
  let ps ← c.pairs.mapM fun (k, v) => do
    let p ← ofPair k v
    if negate then p.inverted else .ok p
  join connective ps

end Predicate

end SqlExpr
