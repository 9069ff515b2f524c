import SqlExpr.Proofs.Built
import SqlExpr.Proofs.Nesting

/-!
What expressions denote, for any meaning of their leaves and operators. A specifier denotes what it
stands for, and taking in the operands of a node of the same operator changes no value.
-/

namespace SqlExpr

/-- A meaning of leaves and operators. An operator is a left fold of a binary function, or a function
of its operands and of the values of those it reads. -/
structure Algebra (α : Type) where
  leaf : Expr → α
  folds : Operator → Bool
  binary : Operator → α → α → α
  function : Operator → List Expr → List α → α
  many : ∀ op, folds op = true → op.arity = .many
  regroup : ∀ op, folds op = true → op.isAssociative = true → ∀ a b c,
    binary op (binary op a b) c = binary op a (binary op b c)

namespace Algebra

variable {α : Type} (A : Algebra α)

def operate (op : Operator) (args : List Expr) : List α → α
  | [] => A.function op args []
  | first :: others =>
    if A.folds op then others.foldl (A.binary op) first
    else if op = .noop then first
    else A.function op args (first :: others)

def eval : Expr → α
  | .complex _ op args => A.operate op args ((op.read args).attach.map fun arg => eval arg.val)
  | e =>
    if _ : e.isSpecifier = true then
      match _ : e.resolve with
      | .ok resolved => eval resolved
      | .error _ => A.leaf e
    else A.leaf e
-- Operands are smaller and not nested more deeply; what a specifier stands for may be larger, but is
-- nested less deeply.
termination_by e => (e.nesting, sizeOf e)
decreasing_by
  · rename_i family
    have bound : arg.val.nesting ≤ (Expr.complex family op args).nesting :=
      Expr.nesting_le_of_mem_read arg.property
    have smaller : sizeOf arg.val < sizeOf (Expr.complex family op args) :=
      Expr.sizeOf_lt_of_mem_children (Operator.mem_of_mem_read arg.property)
    exact Prod.Lex.right' _ bound smaller
  · exact Prod.Lex.left _ _ (nesting_resolve_lt ‹_› ‹_›)

theorem eval_complex (family : Family) (op : Operator) (args : List Expr) :
    A.eval (.complex family op args) = A.operate op args ((op.read args).map A.eval) := by
  rw [eval]
  simp

theorem eval_leaf {e : Expr} (noOperator : e.family = none) (plain : e.isSpecifier = false) :
    A.eval e = A.leaf e := by
  rw [eval]
  · simp [plain]
  · rintro family op args rfl
    cases noOperator

theorem eval_resolve {e resolved : Expr} (found : e.resolve = .ok resolved) :
    A.eval e = A.eval resolved := by
  cases specifier : e.isSpecifier with
  | false =>
    rw [Expr.resolve_of_isSpecifier_eq_false specifier] at found
    cases found
    rfl
  | true =>
    rw [eval]
    · simp only [specifier, dif_pos]
      split
      · rename_i other found'
        rw [found] at found'
        cases found'
        rfl
      · rename_i failed
        rw [found] at failed
        cases failed
    · rintro family op args rfl
      cases specifier

theorem operate_of_folds {op : Operator} (folds : A.folds op = true) (args : List Expr) (first : α)
    (others : List α) :
    A.operate op args (first :: others) = others.foldl (A.binary op) first := by
  simp [operate, folds]

theorem operate_noop (args : List Expr) (value : α) : A.operate .noop args [value] = value := by
  have single : A.folds .noop = false := by
    by_contra folds
    cases A.many .noop (by simpa using folds)
  simp [operate, single]

theorem eval_withoutNoop (e : Expr) : A.eval (withoutNoop e) = A.eval e := by
  rcases withoutNoop_cases e with same | ⟨family, wrapped⟩
  · rw [same]
  · have inside : A.eval e = A.operate .noop [withoutNoop e] [A.eval (withoutNoop e)] := by
      conv_lhs => rw [wrapped, eval_complex]
      rfl
    rw [inside, operate_noop]

section Flattening

variable {op : Operator} (folds : A.folds op = true)

include folds

theorem foldl_spliced_leading {e : Expr} (settled : e.Throughout Expr.isSettled) (leading : Bool) :
    ∃ first others, spliced op leading e = first :: others ∧
      (others.map A.eval).foldl (A.binary op) (A.eval first) = A.eval e := by
  rcases spliced_cases op leading e with single | ⟨family, args, found, contents⟩
  · exact ⟨withoutNoop e, [], single, A.eval_withoutNoop e⟩
  · have many := A.many op folds
    have whole := settled.withoutNoop.here
    rw [found] at whole
    obtain ⟨first, others, rfl⟩ := List.exists_cons_of_ne_nil (whole.operands many).1
    refine ⟨first, others, contents, ?_⟩
    rw [← A.eval_withoutNoop e, found, eval_complex,
      Operator.read_of_many many, List.map_cons,
      A.operate_of_folds folds]

theorem foldl_spliced {e : Expr} (settled : e.Throughout Expr.isSettled) (before : α) :
    ((spliced op false e).map A.eval).foldl (A.binary op) before =
      A.binary op before (A.eval e) := by
  -- Only what may be regrouped is spliced here.
  by_cases associative : op.isAssociative = true
  · have regroup : Std.Associative (A.binary op) := ⟨A.regroup op folds associative⟩
    obtain ⟨first, others, contents, same⟩ := A.foldl_spliced_leading folds settled false
    rw [contents, List.map_cons, List.foldl_cons, List.foldl_assoc, same]
  · have single := spliced_of_not_isAssociative (by simpa using associative) e
    rw [single, List.map_singleton, List.foldl_cons, List.foldl_nil, A.eval_withoutNoop]

theorem foldl_flatMap_spliced {others : List Expr}
    (settled : ∀ e ∈ others, e.Throughout Expr.isSettled) (before : α) :
    ((others.flatMap (spliced op false)).map A.eval).foldl (A.binary op) before =
      (others.map A.eval).foldl (A.binary op) before := by
  induction others generalizing before with
  | nil => rfl
  | cons e rest ih =>
    rw [List.flatMap_cons, List.map_append, List.foldl_append, A.foldl_spliced folds
      (settled e (by simp)), ih fun other member => settled other (by simp [member])]
    rfl

theorem operate_flatten {operands : List Expr} (some : operands ≠ [])
    (settled : ∀ e ∈ operands, e.Throughout Expr.isSettled) (args args' : List Expr) :
    A.operate op args ((flatten op operands).map A.eval) =
      A.operate op args' (operands.map A.eval) := by
  obtain ⟨first, others, rfl⟩ := List.exists_cons_of_ne_nil some
  obtain ⟨head, tail, contents, same⟩ := A.foldl_spliced_leading folds (settled first (by simp)) true
  rw [flatten, contents, List.cons_append, List.map_cons, List.map_cons, A.operate_of_folds folds,
    A.operate_of_folds folds, List.map_append, List.foldl_append, same]
  exact A.foldl_flatMap_spliced folds (fun e member => settled e (by simp [member])) _

theorem eval_apply {args : List Expr} {p : Predicate}
    (settled : ∀ arg ∈ args, arg.Throughout Expr.isSettled)
    (plain : ∀ arg ∈ args, arg.isSpecifier = false) (applied : Predicate.apply op args = .ok p) :
    A.eval p.toExpr = A.operate op args (args.map A.eval) := by
  have many := A.many op folds
  obtain ⟨checked, same, found, rfl⟩ := Predicate.apply_eq_ok_iff.mp applied
  rw [settle_of_plain (by rwa [Operator.read_of_many many])] at found
  cases found
  have some := Arity.ne_nil_of_accepts (checkOperands_eq_ok_iff.mp checked).2
  rw [Predicate.toExpr, eval_complex, Operator.read_of_many many,
    Operator.arrange_of_many many, A.operate_flatten folds some settled _ args]

end Flattening

end Algebra

end SqlExpr
