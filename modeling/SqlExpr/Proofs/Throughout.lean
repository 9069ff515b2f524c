import SqlExpr.Proofs.Closure

/-!
Properties that hold of an expression and of everything in it. Construction keeps such a property if
the nodes that operators make have it.
-/

namespace SqlExpr

namespace Expr

/-- The property holds of the expression and of everything in it. -/
inductive Throughout (property : Expr → Prop) : Expr → Prop
  | intro {e : Expr} : property e → (∀ child ∈ e.children, Throughout property child) →
      Throughout property e

variable {property : Expr → Prop}

theorem Throughout.here {e : Expr} (h : e.Throughout property) : property e := by
  cases h
  assumption

theorem Throughout.child {e child : Expr} (h : e.Throughout property)
    (member : child ∈ e.children) : child.Throughout property := by
  cases h with
  | intro _ inside => exact inside child member

theorem Throughout.leaf {e : Expr} (here : property e) (childless : e.children = []) :
    e.Throughout property :=
  .intro here (by simp [childless])

theorem Throughout.mono {other : Expr → Prop} (weaker : ∀ e, property e → other e) {e : Expr}
    (h : e.Throughout property) : e.Throughout other := by
  induction h with
  | intro here _ ih => exact .intro (weaker _ here) ih

theorem Throughout.withoutNoop {property : Expr → Prop} {e : Expr} (h : e.Throughout property) :
    (withoutNoop e).Throughout property := by
  rcases withoutNoop_cases e with same | ⟨family, wrapped⟩
  · rw [same]
    exact h
  · rw [wrapped] at h
    exact h.child (by simp [children])

theorem Throughout.arrange {op : Operator} {settled : List Expr}
    (every : ∀ arg ∈ settled, arg.Throughout property) :
    ∀ arg ∈ op.arrange settled, arg.Throughout property := by
  refine forall_mem_arrange every ?_ ?_
  · intro family e h
    exact h.child (by simp [children])
  · intro family args h arg member
    exact h.child member

end Expr

/-- A property of single nodes that holds of all but operator nodes, and of the operator nodes that
are made of operands with the property, none of them a specifier where it is read. -/
structure NodeProperty (property : Expr → Prop) : Prop where
  plain : ∀ e, e.family = none → property e
  made : ∀ family op settled, checkOperands family op settled = .ok () →
    (∀ arg ∈ settled, arg.Throughout property) →
    (∀ arg ∈ op.read settled, arg.isSpecifier = false) →
    property (.complex family op (op.arrange settled))
  swapped : ∀ family op other args, op.counterpart = some other → ¬(op = .and ∨ op = .or) →
    property (.complex family op args) → property (.complex .boolean other args)

namespace NodeProperty

variable {property : Expr → Prop} (node : NodeProperty property)

include node

theorem throughout_made {family : Family} {op : Operator} {settled : List Expr}
    (checked : checkOperands family op settled = .ok ())
    (every : ∀ arg ∈ settled, arg.Throughout property)
    (plain : ∀ arg ∈ op.read settled, arg.isSpecifier = false) :
    (Expr.complex family op (op.arrange settled)).Throughout property := by
  refine .intro (node.made family op settled checked every plain) ?_
  exact Expr.Throughout.arrange every

theorem throughout_settled {family : Family} {op : Operator} {args settled : List Expr}
    (checked : checkOperands family op args = .ok ())
    (read : ∀ arg ∈ op.read args, ∀ resolved, arg.resolve = .ok resolved →
      resolved.Throughout property)
    (kept : ∀ arg ∈ op.kept args, arg.Throughout property)
    (found : settle op (args.map .of) = .ok settled) :
    (Expr.complex family op (op.arrange settled)).Throughout property := by
  refine node.throughout_made (checkOperands_settled checked found)
    (forall_mem_of_settle found read kept) ?_
  exact forall_mem_read_of_settle found
    fun arg _ resolved found => Expr.isSpecifier_of_resolve found

theorem and {other : Expr → Prop} (second : NodeProperty other) :
    NodeProperty fun e => property e ∧ other e where
  plain e noOperator := ⟨node.plain e noOperator, second.plain e noOperator⟩
  made family op settled checked every plain := by
    refine ⟨node.made family op settled checked ?_ plain,
      second.made family op settled checked ?_ plain⟩
    · intro arg member
      exact (every arg member).mono fun _ held => held.1
    · intro arg member
      exact (every arg member).mono fun _ held => held.2
  swapped family op other args swap few held :=
    ⟨node.swapped family op other args swap few held.1,
      second.swapped family op other args swap few held.2⟩

theorem closed : Closed (Expr.Throughout property) where
  plain e noOperator parts := .intro (node.plain e noOperator) parts
  part e h child member := h.child member
  applied op args p _ read kept found := by
    obtain ⟨checked, settled, settles, rfl⟩ := Predicate.apply_eq_ok_iff.mp found
    refine node.throughout_settled checked ?_ kept settles
    intro arg member
    exact (read arg member).2
  swapped family op other args p swap few held found := by
    rw [SpecifierReading.eq_of_absent_predicate (Operator.not_many_of_counterpart swap few) found]
    refine .intro (node.swapped family op other args swap few held.here) ?_
    intro child member
    exact held.child member

end NodeProperty

end SqlExpr
