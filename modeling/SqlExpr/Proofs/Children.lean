import SqlExpr.Expr.Basic

/-!
The direct parts of an expression, and induction over them.
-/

namespace SqlExpr

def PlaceholderArgs.items : PlaceholderArgs α → List α
  | positional args => args
  | named args => args.map (·.2)

theorem PlaceholderArgs.sizeOf_lt_of_mem_items [SizeOf α] {args : PlaceholderArgs α} {item : α}
    (member : item ∈ args.items) : sizeOf item < sizeOf args := by
  cases args with
  | positional args =>
    have smaller : sizeOf item < sizeOf args := List.sizeOf_lt_of_mem member
    rw [positional.sizeOf_spec]
    omega
  | named args =>
    obtain ⟨⟨name, held⟩, inside, rfl⟩ := List.mem_map.mp member
    have smaller := List.sizeOf_lt_of_mem inside
    rw [Prod.mk.sizeOf_spec] at smaller
    simp only [named.sizeOf_spec]
    omega

def JoinCondition.items : JoinCondition α → List α
  | unconstrained => []
  | onPredicate predicate => [predicate]
  | usingColumns columns => columns

theorem JoinCondition.sizeOf_lt_of_mem_items [SizeOf α] {condition : JoinCondition α} {item : α}
    (member : item ∈ condition.items) : sizeOf item < sizeOf condition := by
  cases condition with
  | unconstrained => cases member
  | onPredicate predicate =>
    rw [List.mem_singleton.mp member, onPredicate.sizeOf_spec]
    omega
  | usingColumns columns =>
    have smaller : sizeOf item < sizeOf columns := List.sizeOf_lt_of_mem member
    rw [usingColumns.sizeOf_spec]
    omega

namespace Expr

def sides (pairs : List (Expr × Expr)) : List Expr :=
  pairs.flatMap fun (k, v) => [k, v]

/-- The expressions directly under a node. -/
def children : Expr → List Expr
  | list items => items
  | conditions _ pairs => sides pairs
  | qualified table column => [table, column]
  | columnAll table => [table]
  | aliased expr _ _ => [expr]
  | complex _ _ args => args
  | call _ args _ _ => args
  | cast expr _ => [expr]
  | subscript expr indices => expr :: indices
  | caseWhen branches otherwise subject => subject.toList ++ sides branches ++ [otherwise]
  | ordered expr _ _ => [expr]
  | placeholder _ args _ => args.items
  | join _ table _ condition => table :: condition.items
  | _ => []

theorem mem_sides {pairs : List (Expr × Expr)} {e : Expr} :
    e ∈ sides pairs ↔ ∃ pair ∈ pairs, e = pair.1 ∨ e = pair.2 := by
  simp [sides]

theorem sizeOf_lt_of_mem_sides {pairs : List (Expr × Expr)} {e : Expr} (member : e ∈ sides pairs) :
    sizeOf e < sizeOf pairs := by
  obtain ⟨⟨k, v⟩, inside, side⟩ := mem_sides.mp member
  have smaller := List.sizeOf_lt_of_mem inside
  rw [Prod.mk.sizeOf_spec] at smaller
  rcases side with rfl | rfl <;> omega

theorem sizeOf_lt_of_mem_children {e child : Expr} (member : child ∈ e.children) :
    sizeOf child < sizeOf e := by
  cases e <;> simp only [children, List.mem_cons, List.mem_append, List.not_mem_nil,
    or_false] at member
  case list | complex | call =>
    have smaller := List.sizeOf_lt_of_mem member
    simp only [list.sizeOf_spec, complex.sizeOf_spec, call.sizeOf_spec]
    omega
  case conditions =>
    have smaller := sizeOf_lt_of_mem_sides member
    rw [conditions.sizeOf_spec]
    omega
  case qualified =>
    rw [qualified.sizeOf_spec]
    rcases member with rfl | rfl <;> omega
  case columnAll | aliased | cast | ordered =>
    subst member
    simp only [columnAll.sizeOf_spec, aliased.sizeOf_spec, cast.sizeOf_spec, ordered.sizeOf_spec]
    omega
  case subscript =>
    rw [subscript.sizeOf_spec]
    rcases member with rfl | member
    · omega
    · have smaller := List.sizeOf_lt_of_mem member
      omega
  case caseWhen branches otherwise subject =>
    rw [caseWhen.sizeOf_spec]
    rcases member with (member | member) | rfl
    · rw [Option.mem_toList] at member
      rw [member, Option.some.sizeOf_spec]
      omega
    · have smaller := sizeOf_lt_of_mem_sides member
      omega
    · omega
  case placeholder template args parenthesize =>
    have smaller := PlaceholderArgs.sizeOf_lt_of_mem_items member
    rw [placeholder.sizeOf_spec]
    omega
  case join kind table label condition =>
    rw [join.sizeOf_spec]
    rcases member with rfl | member
    · omega
    · have smaller := JoinCondition.sizeOf_lt_of_mem_items member
      omega

/-- What holds of an expression whenever it holds of the parts of the expression holds of all. -/
theorem childrenInduction {motive : Expr → Prop}
    (step : ∀ e, (∀ child ∈ e.children, motive child) → motive e) (e : Expr) : motive e :=
  step e fun child _ => childrenInduction step child
termination_by sizeOf e
decreasing_by exact sizeOf_lt_of_mem_children ‹_›

end Expr

end SqlExpr
