import SqlExpr.Proofs.Evaluation

/-!
Applying an operator keeps the meaning of its operands, though specifiers are read, NOOP is dropped
and nodes of the same operator are spliced on the way.
-/

namespace SqlExpr

/-- A meaning of expressions in which an operator sees the values of the operands that it reads, and
the operands that it leaves alone as they are. -/
structure Interpretation (α : Type) where
  leaf : Expr → α
  binary : Operator → α → α → α
  function : Operator → List α → List Expr → α
  regroup : ∀ op, op.isAssociative = true → ∀ a b c,
    binary op (binary op a b) c = binary op a (binary op b c)

namespace Interpretation

variable {α : Type} (I : Interpretation α)

def algebra : Algebra α where
  leaf := I.leaf
  folds op := op.arity = .many
  binary := I.binary
  function op args values := I.function op values (op.kept args)
  many := by simp
  regroup op _ := I.regroup op

def value (e : Expr) : α :=
  I.algebra.eval e

/-- The operator applied to the values of its operands: a left fold of the binary function from the
first operand on, the operand itself for NOOP, and a function of its own for any other. -/
def operate (op : Operator) (args : List Expr) : α :=
  I.algebra.operate op args ((op.read args).map I.value)

theorem value_complex (family : Family) (op : Operator) (args : List Expr) :
    I.value (.complex family op args) = I.operate op args :=
  I.algebra.eval_complex family op args

theorem operate_congr {op : Operator} {args args' : List Expr}
    (values : (op.read args).map I.value = (op.read args').map I.value)
    (kept : op.kept args = op.kept args') : I.operate op args = I.operate op args' := by
  rw [operate, operate, values]
  cases (op.read args').map I.value <;> simp [Algebra.operate, algebra, kept]

theorem operate_settled {op : Operator} {args settled : List Expr}
    (found : settle op (args.map .of) = .ok settled) : I.operate op settled = I.operate op args := by
  obtain ⟨related, kept⟩ := settle_of_eq_ok_iff.mp found
  refine I.operate_congr ?_ kept
  symm
  rw [← List.forall₂_eq_eq_eq, List.forall₂_map_left_iff, List.forall₂_map_right_iff]
  exact related.imp fun _ _ stands => I.algebra.eval_resolve stands

theorem operate_arrange {op : Operator} {settled : List Expr} (some : settled ≠ [])
    (every : ∀ arg ∈ settled, arg.Throughout Expr.isSettled) :
    I.operate op (op.arrange settled) = I.operate op settled := by
  by_cases many : op.arity = .many
  · rw [Operator.arrange_of_many many, operate, operate, Operator.read_of_many many,
      Operator.read_of_many many]
    exact I.algebra.operate_flatten (by simpa [algebra] using many) some every _ _
  · rw [Operator.arrange_of_not_many many]

end Interpretation

theorem apply_keeps_right_operands {family : Family} {op : Operator} {args : List Expr} {node : Expr}
    (many : op.arity = .many) (grouped : op.isAssociative = false)
    (applied : Expr.apply family op args = .ok node) :
    ∃ leading rights, node = .complex family op (leading ++ rights) ∧
      List.Forall₂ (fun given right => ∃ resolved, given.resolve = .ok resolved ∧
        right = withoutNoop resolved) args.tail rights := by
  obtain ⟨checked, settled, found, rfl⟩ := Expr.apply_eq_ok_iff.mp applied
  have related := (settle_of_eq_ok_iff.mp found).1
  rw [Operator.read_of_many many, Operator.read_of_many many] at related
  rw [Operator.arrange_of_many many]
  cases related with
  | nil => exact absurd rfl (Arity.ne_nil_of_accepts (checkOperands_eq_ok_iff.mp checked).2)
  | cons first others =>
    refine ⟨_, _, by rw [flatten_of_not_isAssociative grouped], ?_⟩
    rw [List.forall₂_map_right_iff]
    exact others.imp fun _ resolved stands => ⟨resolved, stands, rfl⟩

/-- The value of a node is its operator applied to the values of the operands as given; where
operands may not be regrouped, each behind the first stays one operand. -/
theorem value_apply {α : Type} (I : Interpretation α) {family : Family} {op : Operator}
    {args : List Expr} {node : Expr} (built : ∀ arg ∈ args, arg.Built)
    (applied : Expr.apply family op args = .ok node) :
    I.value node = I.operate op args ∧
      (op.arity = .many → op.isAssociative = false →
        ∃ leading rights, node = .complex family op (leading ++ rights) ∧
          List.Forall₂ (fun given right => ∃ resolved, given.resolve = .ok resolved ∧
            right = withoutNoop resolved) args.tail rights) := by
  refine ⟨?_, fun many grouped => apply_keeps_right_operands many grouped applied⟩
  obtain ⟨checked, settled, found, rfl⟩ := Expr.apply_eq_ok_iff.mp applied
  have some : settled ≠ [] := by
    have accepted := (checkOperands_eq_ok_iff.mp checked).2
    rw [← length_of_settle found] at accepted
    exact Arity.ne_nil_of_accepts accepted
  calc I.value (.complex family op (op.arrange settled))
      = I.operate op (op.arrange settled) := I.value_complex family op _
    _ = I.operate op settled := I.operate_arrange some (forall_mem_settled_throughout built found)
    _ = I.operate op args := I.operate_settled found

def arithmetic : Interpretation Int where
  leaf
    | .value (.integer n) => n.toInt
    | _ => 0
  binary
    | .add, a, b => a + b
    | .sub, a, b => a - b
    | .mul, a, b => a * b
    | _, a, _ => a
  function _ _ _ := 0
  regroup op associative a b c := by
    cases op <;> simp_all [Operator.isAssociative, Int.add_assoc, Int.mul_assoc]

def difference (m n : Int64) : Expr :=
  .complex .numeric .sub [.value (.integer m), .value (.integer n)]

theorem Expr.Built.difference (m n : Int64) : (difference m n).Built := by
  have made : Expr.apply .numeric .sub [.value (.integer m), .value (.integer n)] =
      .ok (SqlExpr.difference m n) := rfl
  exact .operator (by simp [Built.value]) made

theorem value_apply_difference :
    arithmetic.value (.complex .numeric .sub
        [.value (.integer 9), .value (.integer 4), difference 3 1]) =
      arithmetic.operate .sub [difference 9 4, difference 3 1] := by
  have made : Expr.apply .numeric .sub [difference 9 4, difference 3 1] =
      .ok (.complex .numeric .sub [.value (.integer 9), .value (.integer 4), difference 3 1]) := rfl
  exact (value_apply arithmetic (by simp [Expr.Built.difference]) made).1

end SqlExpr
