import SqlExpr.Proofs.Evaluation

/-!
Three truth values, and the truth values of expressions for any truth of their leaves and
comparisons.
-/

namespace SqlExpr

inductive Truth where
  | fails
  | unknown
  | holds
  deriving DecidableEq, Repr

namespace Truth

def not : Truth → Truth
  | fails => holds
  | unknown => unknown
  | holds => fails

def and : Truth → Truth → Truth
  | fails, _ | _, fails => fails
  | holds, holds => holds
  | _, _ => unknown

def or : Truth → Truth → Truth
  | holds, _ | _, holds => holds
  | fails, fails => fails
  | _, _ => unknown

def ofConstant : Option Bool → Truth
  | some true => holds
  | some false => fails
  | none => unknown

@[simp] theorem not_not (a : Truth) : a.not.not = a := by
  cases a <;> rfl

theorem not_and (a b : Truth) : (a.and b).not = a.not.or b.not := by
  cases a <;> cases b <;> rfl

theorem not_or (a b : Truth) : (a.or b).not = a.not.and b.not := by
  cases a <;> cases b <;> rfl

theorem and_assoc (a b c : Truth) : (a.and b).and c = a.and (b.and c) := by
  cases a <;> cases b <;> cases c <;> rfl

theorem or_assoc (a b c : Truth) : (a.or b).or c = a.or (b.or c) := by
  cases a <;> cases b <;> cases c <;> rfl

def connect : Operator → Truth → Truth → Truth
  | .and, a, b => a.and b
  | .or, a, b => a.or b
  | _, a, _ => a

theorem connect_assoc {op : Operator} (a b c : Truth) :
    connect op (connect op a b) c = connect op a (connect op b c) := by
  cases op <;> simp [connect, and_assoc, or_assoc]

theorem not_connect {op other : Operator} (swap : op.counterpart = some other)
    (connective : op.isConnective) (a b : Truth) :
    (connect op a b).not = connect other a.not b.not := by
  rcases connective with rfl | rfl <;> cases swap
  · exact not_and a b
  · exact not_or a b

theorem foldl_connect_not {op other : Operator} (swap : op.counterpart = some other)
    (connective : op.isConnective) (first : Truth) (others : List Truth) :
    (others.map not).foldl (connect other) first.not = (others.foldl (connect op) first).not := by
  induction others generalizing first with
  | nil => rfl
  | cons a rest ih =>
    rw [List.map_cons, List.foldl_cons, List.foldl_cons, ← not_connect swap connective, ih]

end Truth

/-- Truth values of leaves and of comparisons, where a negative operator is the negation of its
positive partner. -/
structure Valuation where
  leaf : Expr → Truth
  holds : Operator → List Expr → Truth
  negative : ∀ op other args, op.arity = .two → op.counterpart = some other →
    holds other args = (holds op args).not

namespace Valuation

variable (V : Valuation)

def leafTruth : Expr → Truth
  | .value .null => .unknown
  | .value (.boolean truth) => .ofConstant (some truth)
  | .isConstant truth => .ofConstant truth
  | .isNotConstant truth => (Truth.ofConstant truth).not
  | e => V.leaf e

/-- AND, OR and NOT are connectives, any other operator has a truth value of its own on each list of
operands. -/
def algebra : Algebra Truth where
  leaf := V.leafTruth
  folds op := op = .and ∨ op = .or
  binary := Truth.connect
  function op args values :=
    match op, values with
    | .not, [value] => value.not
    | op, _ => V.holds op args
  many op connective := by
    obtain rfl | rfl : op = .and ∨ op = .or := by simpa using connective
    · rfl
    · rfl
  regroup _ _ _ := Truth.connect_assoc

def truth (e : Expr) : Truth :=
  V.algebra.eval e

theorem truth_complex (family : Family) (op : Operator) (args : List Expr) :
    V.truth (.complex family op args) =
      V.algebra.operate op args ((op.read args).map V.truth) :=
  V.algebra.eval_complex family op args

theorem truth_leaf {e : Expr} (noOperator : e.family = none) (plain : e.isSpecifier = false) :
    V.truth e = V.leafTruth e :=
  V.algebra.eval_leaf noOperator plain

theorem truth_not (family : Family) (e : Expr) :
    V.truth (.complex family .not [e]) = (V.truth e).not := by
  rw [truth_complex]
  rfl

theorem truth_noop (family : Family) (e : Expr) :
    V.truth (.complex family .noop [e]) = V.truth e := by
  rw [truth_complex]
  rfl

theorem truth_comparison {op : Operator} (comparison : op.arity = .two) (family : Family)
    (args : List Expr) : V.truth (.complex family op args) = V.holds op args := by
  rw [truth_complex]
  cases op <;> cases comparison <;> cases Operator.read _ args <;> rfl

theorem truth_counterpart {op other : Operator} (swap : op.counterpart = some other)
    (few : ¬op.isConnective) {family family' : Family} {args : List Expr}
    (accepted : op.arity.accepts args.length = true) :
    V.truth (.complex family' other args) = (V.truth (.complex family op args)).not := by
  by_cases comparison : op.arity = .two
  · have opposite : other.arity = .two := by rw [Operator.counterpart_arity swap, comparison]
    rw [V.truth_comparison opposite, V.truth_comparison comparison,
      V.negative op other args comparison swap]
  · have wrapper : op = .not ∧ other = .noop ∨ op = .noop ∧ other = .not := by
      cases op <;> cases swap <;> simp_all [Operator.arity, Operator.isConnective]
    have single : args.length = 1 := by
      rcases wrapper with ⟨rfl, _⟩ | ⟨rfl, _⟩ <;> simpa [Operator.arity, Arity.accepts] using accepted
    obtain ⟨e, rfl⟩ := List.length_eq_one_iff.mp single
    rcases wrapper with ⟨rfl, rfl⟩ | ⟨rfl, rfl⟩
    · rw [truth_not, truth_noop, Truth.not_not]
    · rw [truth_not, truth_noop]

section Connectives

variable {op : Operator} (connective : op.isConnective)

include connective

theorem folds_of_isConnective : V.algebra.folds op = true := by
  simpa [algebra, Operator.isConnective] using connective

theorem operate_connective (args : List Expr) (first : Truth) (others : List Truth) :
    V.algebra.operate op args (first :: others) = others.foldl (Truth.connect op) first :=
  V.algebra.operate_of_folds (V.folds_of_isConnective connective) args first others

theorem operate_congr (args args' : List Expr) {values : List Truth} (some : values ≠ []) :
    V.algebra.operate op args values = V.algebra.operate op args' values := by
  obtain ⟨first, others, rfl⟩ := List.exists_cons_of_ne_nil some
  rw [V.operate_connective connective, V.operate_connective connective]

/-- De Morgan's laws for the values of operands. -/
theorem operate_not {other : Operator} (swap : op.counterpart = some other) (args args' : List Expr)
    {values : List Truth} (some : values ≠ []) :
    V.algebra.operate other args' (values.map Truth.not) =
      (V.algebra.operate op args values).not := by
  obtain ⟨first, others, rfl⟩ := List.exists_cons_of_ne_nil some
  have opposite := Operator.isConnective_of_counterpart swap connective
  rw [List.map_cons, V.operate_connective opposite, V.operate_connective connective]
  exact Truth.foldl_connect_not swap connective first others

end Connectives

end Valuation

end SqlExpr
