import SqlExpr.Proofs.Built

/-!
Operands of numeric and string nodes. Operands with a truth value are refused as they are given, but
a generic node may hold one, and n-ary operators take it out. Where generic nodes are looked into, no
truth value gets in.
-/

namespace SqlExpr

/-- The operands of NOOP and of n-ary nodes may come to stand in the node around them. -/
def Operator.opens (op : Operator) : Prop :=
  op = .noop ∨ op.arity = .many

namespace Expr

/-- No operand of a numeric or string node carries a truth value. -/
def hasNoTruthOperand : Expr → Prop
  | complex family _ args => family.wantsScalars = true → ∀ arg ∈ args, arg.isBooleanTyped = false
  | _ => True

/-- The expression carries no truth value, nor does any that a generic node lets out of it. -/
inductive Scalar : Expr → Prop
  | closed {e : Expr} : e.isBooleanTyped = false →
      (∀ op args, e = .complex .generic op args → ¬op.opens) → Scalar e
  | generic {op : Operator} {args : List Expr} : (∀ arg ∈ args, Scalar arg) →
      Scalar (.complex .generic op args)

def hasScalarOperands : Expr → Prop
  | complex family _ args => family.wantsScalars = true → ∀ arg ∈ args, arg.Scalar
  | _ => True

theorem Scalar.isBooleanTyped_eq_false {e : Expr} (h : e.Scalar) : e.isBooleanTyped = false := by
  cases h with
  | closed untyped _ => exact untyped
  | generic _ => rfl

theorem hasScalarOperands.hasNoTruthOperand {e : Expr} (h : e.hasScalarOperands) :
    e.hasNoTruthOperand := by
  cases e
  case complex family op args =>
    intro scalars arg member
    exact (h scalars arg member).isBooleanTyped_eq_false
  all_goals trivial

theorem Scalar.operands {family : Family} {op : Operator} {args : List Expr} (opened : op.opens)
    (scalar : (complex family op args).Scalar) (held : (complex family op args).hasScalarOperands) :
    ∀ arg ∈ args, arg.Scalar := by
  cases scalar with
  | closed untyped sealed =>
    cases family with
    | generic => exact absurd opened (sealed op args rfl)
    | boolean => cases untyped
    | numeric | string => exact held rfl
  | generic every => exact every

end Expr

open SqlExpr.Expr

theorem forall_mem_arrange_scalar {op : Operator} {args : List Expr}
    (scalar : ∀ arg ∈ args, arg.Scalar) (every : ∀ arg ∈ args, arg.Throughout hasScalarOperands) :
    ∀ arg ∈ op.arrange args, arg.Scalar := by
  by_cases many : op.arity = .many
  · have both : ∀ arg ∈ op.arrange args, arg.Scalar ∧ arg.Throughout hasScalarOperands := by
      refine forall_mem_arrange ?_ ?_ ?_
      · intro arg member
        exact ⟨scalar arg member, every arg member⟩
      · rintro family e ⟨outer, held⟩
        exact ⟨outer.operands (.inl rfl) held.here e (by simp), held.child (by simp [children])⟩
      · rintro family args ⟨outer, held⟩ arg member
        exact ⟨outer.operands (.inr many) held.here arg member, held.child member⟩
    intro arg member
    exact (both arg member).1
  · rw [Operator.arrange_of_not_many many]
    exact scalar

/-! Boolean nodes may hold anything, so that synthesis and negation add nothing to check. -/

theorem scalarOperands_closed : Closed (Expr.Throughout hasScalarOperands) where
  plain e noOperator parts := by
    refine .intro ?_ parts
    cases e <;> trivial
  part e h child member := h.child member
  applied op args p _ read kept found := by
    obtain ⟨_, settled, settles, rfl⟩ := Predicate.apply_eq_ok_iff.mp found
    have every := forall_mem_of_settle settles (fun arg member => (read arg member).2) kept
    exact .intro (fun scalars => absurd scalars (by decide)) (Throughout.arrange every)
  swapped family op other args p swap few held found := by
    rw [SpecifierReading.eq_of_absent_predicate (Operator.not_many_of_counterpart swap few) found]
    exact .intro (fun scalars => absurd scalars (by decide)) fun child member => held.child member

namespace Expr

/-- As `Built`, but numeric and string operators are applied to scalars only. -/
inductive BuiltOfScalars : Expr → Prop
  | plain {e : Expr} : e.family = none → (∀ child ∈ e.children, BuiltOfScalars child) →
      BuiltOfScalars e
  | operator {family : Family} {op : Operator} {args : List Expr} {node : Expr} :
      (∀ arg ∈ args, BuiltOfScalars arg) → (family.wantsScalars = true → ∀ arg ∈ args, arg.Scalar) →
      Expr.apply family op args = .ok node → BuiltOfScalars node
  | part {e child : Expr} : BuiltOfScalars e → child ∈ e.children → BuiltOfScalars child

theorem throughout_apply {family : Family} {op : Operator} {args : List Expr} {node : Expr}
    (every : ∀ arg ∈ args, arg.Throughout hasScalarOperands)
    (scalar : family.wantsScalars = true → ∀ arg ∈ args, arg.Scalar)
    (applied : Expr.apply family op args = .ok node) : node.Throughout hasScalarOperands := by
  obtain ⟨checked, settled, found, rfl⟩ := apply_eq_ok_iff.mp applied
  have each : ∀ arg ∈ settled, arg.Throughout hasScalarOperands := by
    refine forall_mem_of_settle found ?_ ?_
    · intro arg member resolved
      exact scalarOperands_closed.synthesisInvariant.of_resolve
        (every arg (Operator.mem_of_mem_read member))
    · intro arg member
      exact every arg (Operator.mem_of_mem_kept member)
  refine .intro ?_ (Throughout.arrange each)
  intro scalars
  -- Scalars are no specifiers, so that they settle to themselves.
  have same : settled = args := by
    rw [settle_of_plain] at found
    · cases found
      rfl
    · intro arg member
      have alone := scalar scalars arg (Operator.mem_of_mem_read member)
      exact isSpecifier_of_isBooleanTyped alone.isBooleanTyped_eq_false
  subst same
  exact forall_mem_arrange_scalar (scalar scalars) every

/-- The check on the operands that are given holds of those that are kept, if it looks into generic
nodes. -/
theorem BuiltOfScalars.throughout_hasNoTruthOperand {e : Expr} (built : e.BuiltOfScalars) :
    e.Throughout Expr.hasNoTruthOperand := by
  have held : e.Throughout hasScalarOperands := by
    induction built with
    | plain noOperator _ ih => exact scalarOperands_closed.plain _ noOperator ih
    | operator _ scalar applied ih => exact throughout_apply ih scalar applied
    | part _ member ih => exact ih.child member
  exact held.mono fun _ => hasScalarOperands.hasNoTruthOperand

theorem BuiltOfScalars.leaf {e : Expr} (noOperator : e.family = none)
    (childless : e.children = []) : e.BuiltOfScalars :=
  .plain noOperator (by simp [childless])

def wrapped (e : Expr) : Expr :=
  .complex .generic .noop [e]

theorem BuiltOfScalars.throughout_hasNoTruthOperand_sum :
    (complex .numeric .add [.identifier "a", .value (.integer 1)]).Throughout
      Expr.hasNoTruthOperand := by
  have column : (identifier "a").BuiltOfScalars := .leaf rfl rfl
  have one : (value (.integer 1)).BuiltOfScalars := .leaf rfl rfl
  have noop : (wrapped (.identifier "a")).BuiltOfScalars := by
    have applied : Expr.apply .generic .noop [.identifier "a"] =
        .ok (wrapped (.identifier "a")) := rfl
    exact .operator (by simpa using column) (fun scalars => absurd scalars (by decide)) applied
  have applied : Expr.apply .numeric .add [wrapped (.identifier "a"), .value (.integer 1)] =
      .ok (complex .numeric .add [.identifier "a", .value (.integer 1)]) := rfl
  have scalar : ∀ arg ∈ [wrapped (.identifier "a"), .value (.integer 1)], arg.Scalar := by
    have column : (identifier "a").Scalar := .closed rfl (by simp)
    have one : (value (.integer 1)).Scalar := .closed rfl (by simp)
    have noop : (wrapped (.identifier "a")).Scalar := .generic (by simpa using column)
    simp [noop, one]
  exact throughout_hasNoTruthOperand (.operator (by simp [noop, one]) (fun _ => scalar) applied)

/-- TRUE is refused by a sum, but not in NOOP, out of which the sum takes it. -/
theorem not_throughout_hasNoTruthOperand_sum :
    ¬ ∀ e : Expr, e.Built → e.Throughout hasNoTruthOperand := by
  intro always
  have noop : (wrapped (.value (.boolean true))).Built := by
    have applied : Expr.apply .generic .noop [.value (.boolean true)] =
        .ok (wrapped (.value (.boolean true))) := rfl
    exact .operator (by simp [Built.value]) applied
  have applied : Expr.apply .numeric .add [wrapped (.value (.boolean true)), .value (.integer 1)] =
      .ok (complex .numeric .add [.value (.boolean true), .value (.integer 1)]) := rfl
  have built := Built.operator (by simp [noop, Built.value]) applied
  have untyped := (always _ built).here rfl (.value (.boolean true)) (by simp)
  cases untyped

end Expr

end SqlExpr
