import SqlExpr.Predicate.Guarded
import SqlExpr.Proofs.Throughout

/-!
Expressions that are built by applying operators, what each operator node in them is certain to hold,
and what is made of them.
-/

namespace SqlExpr

theorem Operator.counterpart_arity {op other : Operator} (h : op.counterpart = some other) :
    other.arity = op.arity := by
  cases op <;> cases h <;> rfl

theorem Operator.refusesTruth_counterpart {op other : Operator}
    (swap : op.counterpart = some other) :
    refusesTruth .boolean other = refusesTruth .boolean op := by
  cases op <;> cases swap <;> rfl

namespace Expr

/-- Operator nodes come from applying operators to what is built, other nodes are put together from
what is built, and either may be taken apart again. -/
inductive Built : Expr → Prop
  | plain {e : Expr} : e.family = none → (∀ child ∈ e.children, Built child) → Built e
  | operator {family : Family} {op : Operator} {args : List Expr} {node : Expr} :
      (∀ arg ∈ args, Built arg) → Expr.apply family op args = .ok node → Built node
  | part {e child : Expr} : Built e → child ∈ e.children → Built child

theorem Built.value (v : Value) : (value v).Built :=
  .plain rfl (by simp [children])

theorem Built.identifier (name : String) : (identifier name).Built :=
  .plain rfl (by simp [children])

/-- An operator node holds as many operands as its operator takes, and no specifier where it reads
an operand. -/
def isSettled : Expr → Prop
  | complex _ op args =>
    op.arity.accepts args.length = true ∧ ∀ arg ∈ op.read args, arg.isSpecifier = false
  | _ => True

theorem isSettled.operands {family : Family} {op : Operator} {args : List Expr}
    (many : op.arity = .many) (h : (complex family op args).isSettled) :
    args ≠ [] ∧ ∀ arg ∈ args, arg.isSpecifier = false := by
  obtain ⟨counted, plain⟩ := h
  rw [Operator.read_of_many many] at plain
  exact ⟨Arity.ne_nil_of_accepts counted, plain⟩

theorem Throughout.spliced_ne_nil {op : Operator} {e : Expr} (h : e.Throughout isSettled)
    (many : op.arity = .many) (leading : Bool) : spliced op leading e ≠ [] := by
  apply SqlExpr.spliced_ne_nil
  intro family args found
  have inner := h.withoutNoop.here
  rw [found] at inner
  exact (inner.operands many).1

end Expr

theorem flatten_accepted {op : Operator} (many : op.arity = .many) {operands : List Expr}
    (every : ∀ operand ∈ operands, operand.Throughout Expr.isSettled)
    (accepted : op.arity.accepts operands.length = true) :
    op.arity.accepts (flatten op operands).length = true := by
  cases operands with
  | nil => exact absurd rfl (Arity.ne_nil_of_accepts accepted)
  | cons first others =>
    have filled := (every first (by simp)).spliced_ne_nil many true
    have positive := List.length_pos_of_ne_nil filled
    simp only [many, Arity.accepts, flatten, List.length_append, decide_eq_true_eq]
    omega

theorem forall_mem_flatten_plain {op : Operator} (many : op.arity = .many) {operands : List Expr}
    (every : ∀ operand ∈ operands, operand.Throughout Expr.isSettled)
    (plain : ∀ operand ∈ operands, operand.isSpecifier = false) :
    ∀ arg ∈ flatten op operands, arg.isSpecifier = false := by
  have both : ∀ arg ∈ flatten op operands,
      arg.isSpecifier = false ∧ arg.Throughout Expr.isSettled := by
    refine forall_mem_flatten ?_ ?_ ?_
    · intro operand member
      exact ⟨plain operand member, every operand member⟩
    · rintro family e ⟨_, h⟩
      exact ⟨h.here.2 e (by simp [Operator.read, Operator.isMembership]),
        h.child (by simp [Expr.children])⟩
    · rintro family args ⟨_, h⟩ arg member
      exact ⟨(h.here.operands many).2 arg member, h.child member⟩
  intro arg member
  exact (both arg member).1

theorem settled_nodeProperty : NodeProperty Expr.isSettled where
  plain e noOperator := by
    cases e <;> trivial
  made family op settled checked every plain := by
    have accepted := (checkOperands_eq_ok_iff.mp checked).2
    by_cases many : op.arity = .many
    · rw [Operator.arrange_of_many many]
      refine ⟨flatten_accepted many every accepted, ?_⟩
      rw [Operator.read_of_many many] at plain ⊢
      exact forall_mem_flatten_plain many every plain
    · rw [Operator.arrange_of_not_many many]
      exact ⟨accepted, plain⟩
  swapped family op other args swap few h := by
    obtain ⟨accepted, plain⟩ := h
    refine ⟨?_, ?_⟩
    · rw [Operator.counterpart_arity swap]
      exact accepted
    · rw [Operator.counterpart_read swap]
      exact plain

theorem settled_closed : Closed (Expr.Throughout Expr.isSettled) :=
  settled_nodeProperty.closed

theorem NodeProperty.throughout_built {property : Expr → Prop} (node : NodeProperty property)
    {e : Expr} (h : e.Built) : e.Throughout property := by
  induction h with
  | plain noOperator _ ih => exact node.closed.plain _ noOperator ih
  | operator _ applied ih =>
    obtain ⟨checked, settled, found, rfl⟩ := Expr.apply_eq_ok_iff.mp applied
    refine node.throughout_settled checked ?_ ?_ found
    · intro arg member resolved
      exact node.closed.synthesisInvariant.of_resolve (ih arg (Operator.mem_of_mem_read member))
    · intro arg member
      exact ih arg (Operator.mem_of_mem_kept member)
  | part _ member ih => exact ih.child member

theorem Expr.Built.throughout {e : Expr} (h : e.Built) : e.Throughout Expr.isSettled :=
  settled_nodeProperty.throughout_built h

theorem forall_mem_settled_throughout {op : Operator} {args settled : List Expr}
    (built : ∀ arg ∈ args, arg.Built) (found : settle op (args.map .of) = .ok settled) :
    ∀ arg ∈ settled, arg.Throughout Expr.isSettled := by
  refine forall_mem_of_settle found ?_ ?_
  · intro arg member resolved
    exact settled_closed.synthesisInvariant.of_resolve
      (built arg (Operator.mem_of_mem_read member)).throughout
  · intro arg member
    exact (built arg (Operator.mem_of_mem_kept member)).throughout

theorem Expr.Built.toExpr {op : Operator} {args : List Expr} {p : Predicate}
    (every : ∀ arg ∈ args, arg.Built) (applied : Predicate.apply op args = .ok p) :
    p.toExpr.Built :=
  .operator every (Expr.apply_toExpr applied)

theorem built_closed : Closed Expr.Built where
  plain e noOperator parts := .plain noOperator parts
  part e h child member := h.part member
  applied op args p _ read kept found := by
    refine .toExpr ?_ found
    intro arg member
    rw [← Operator.read_append_kept op args, List.mem_append] at member
    rcases member with member | member
    · exact (read arg member).1
    · exact kept arg member
  swapped family op other args p swap few held found := by
    have plain := held.throughout.here.2
    rw [← Operator.counterpart_read swap] at plain
    rw [SpecifierReading.absent_predicate_of_plain plain] at found
    refine .toExpr ?_ found
    intro arg member
    exact held.part member

namespace Expr

/-! Synthesis and negation build their results from what is built. -/

theorem Built.predicate {c : Conditions} {connective : Operator} {negate : Bool} {p : Predicate}
    (h : c.toExpr.Built) (found : Predicate.ofConditions c connective negate = .ok p) :
    p.toExpr.Built := by
  refine built_closed.ofConditions ?_ found
  intro side member
  exact h.part member

theorem Built.inverted {e r : Expr} (h : e.Built) (found : e.invert = .ok r) : r.Built :=
  built_closed.invert h found

theorem Built.negation {e : Expr} {p : Predicate} (h : e.Built)
    (found : Predicate.negation e = .ok p) : p.toExpr.Built := by
  rw [Predicate.negation, bind_eq_ok_iff] at found
  obtain ⟨r, inverted, wrapped⟩ := found
  have built := h.inverted inverted
  split at wrapped
  · refine .toExpr ?_ wrapped
    intro arg member
    exact built.part member
  · exact .toExpr (by simpa using built) wrapped

end Expr

end SqlExpr
