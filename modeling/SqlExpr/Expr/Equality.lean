import SqlExpr.Expr.Basic

/-!
Equality of expressions: same nodes with equal parts. Floats compare as numbers, so that an
expression holding a NaN differs from itself, and the two zeros are equal.
-/

namespace SqlExpr

def Value.same : Value → Value → Bool
  | .null, .null => true
  | .boolean a, .boolean b => a == b
  | .integer a, .integer b => a == b
  | .float a, .float b => a == b
  | .string a, .string b => a == b
  | .blob a, .blob b => a == b
  | _, _ => false

instance : BEq Value := ⟨Value.same⟩

namespace Expr

mutual

def same : Expr → Expr → Bool
  | value a, value b => a == b
  | list a, list b => sameAll a b
  | conditions kind a, conditions kind' b => kind == kind' && samePairs a b
  | subquery a, subquery b => a == b
  | pattern a, pattern b => a == b
  | identifier a, identifier b => a == b
  | qualified table column, qualified table' column' => table.same table' && column.same column'
  | columnAll a, columnAll b => a.same b
  | aliased a label columns, aliased b label' columns' =>
    a.same b && label == label' && columns == columns'
  | complex family op a, complex family' op' b => family == family' && op == op' && sameAll a b
  | call name a distinct star, call name' b distinct' star' =>
    name == name' && sameAll a b && distinct == distinct' && star == star'
  | cast a typeName, cast b typeName' => a.same b && typeName == typeName'
  | subscript a indices, subscript b indices' => a.same b && sameAll indices indices'
  | caseWhen branches otherwise subject, caseWhen branches' otherwise' subject' =>
    samePairs branches branches' && otherwise.same otherwise' && sameOption subject subject'
  | ordered a descending nulls, ordered b descending' nulls' =>
    a.same b && descending == descending' && nulls == nulls'
  | constant a, constant b => a == b
  | isConstant a, isConstant b => a == b
  | isNotConstant a, isNotConstant b => a == b
  | literal a, literal b => a == b
  | placeholder template a parenthesize, placeholder template' b parenthesize' =>
    template == template' && sameArgs a b && parenthesize == parenthesize'
  | join kind a label condition, join kind' b label' condition' =>
    kind == kind' && a.same b && label == label' && sameCondition condition condition'
  | _, _ => false

def sameAll : List Expr → List Expr → Bool
  | [], [] => true
  | a :: as, b :: bs => a.same b && sameAll as bs
  | _, _ => false

def samePairs : List (Expr × Expr) → List (Expr × Expr) → Bool
  | [], [] => true
  | (a, c) :: as, (b, d) :: bs => a.same b && c.same d && samePairs as bs
  | _, _ => false

def sameOption : Option Expr → Option Expr → Bool
  | none, none => true
  | some a, some b => a.same b
  | _, _ => false

def sameNamed : List (String × Expr) → List (String × Expr) → Bool
  | [], [] => true
  | (name, a) :: as, (name', b) :: bs => name == name' && a.same b && sameNamed as bs
  | _, _ => false

def sameArgs : PlaceholderArgs Expr → PlaceholderArgs Expr → Bool
  | .positional as, .positional bs => sameAll as bs
  | .named as, .named bs => sameNamed as bs
  | _, _ => false

def sameCondition : JoinCondition Expr → JoinCondition Expr → Bool
  | .unconstrained, .unconstrained => true
  | .onPredicate a, .onPredicate b => a.same b
  | .usingColumns as, .usingColumns bs => sameAll as bs
  | _, _ => false

end

instance : BEq Expr := ⟨same⟩

end Expr

end SqlExpr
