import SqlExpr.Expr.Basic

/-!
Sort terms: an expression, a direction and a place for nulls.
-/

namespace SqlExpr

structure SortTerm where
  expr : Expr
  descending : Bool
  nulls : Option NullsPlacement

namespace SortTerm

def toExpr (term : SortTerm) : Expr :=
  .ordered term.expr term.descending term.nulls

def ofExpr? : Expr → Option SortTerm
  | .ordered expr descending nulls => some ⟨expr, descending, nulls⟩
  | _ => none

@[simp] theorem ofExpr?_toExpr (term : SortTerm) : ofExpr? term.toExpr = some term := rfl

def asc (term : SortTerm) : SortTerm :=
  { term with descending := false }

def desc (term : SortTerm) : SortTerm :=
  { term with descending := true }

def withNulls (nulls : NullsPlacement) (term : SortTerm) : SortTerm :=
  { term with nulls := some nulls }

def reversed (term : SortTerm) : SortTerm :=
  { term with descending := !term.descending, nulls := term.nulls.map .reversed }

theorem reversed_reversed (term : SortTerm) : term.reversed.reversed = term := by
  obtain ⟨expr, descending, nulls⟩ := term
  rcases nulls with _ | _ | _ <;> simp [reversed, NullsPlacement.reversed]

end SortTerm

end SqlExpr
