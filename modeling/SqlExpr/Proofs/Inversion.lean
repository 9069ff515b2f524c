import SqlExpr.Proofs.Assembly

/-!
Negation under any reading of specifiers, case by case: nodes, constants, specifiers, and leaves that
are wrapped in NOT.
-/

namespace SqlExpr

namespace Operator

def isConnective (op : Operator) : Prop :=
  op = .and ∨ op = .or

theorem isAssociative_of_isConnective {op : Operator} (h : op.isConnective) :
    op.isAssociative = true := by
  rcases h with rfl | rfl <;> rfl

theorem many_of_isConnective {op : Operator} (h : op.isConnective) : op.arity = .many :=
  many_of_isAssociative (isAssociative_of_isConnective h)

theorem exists_counterpart {op : Operator} (h : op.isConnective) :
    ∃ other, op.counterpart = some other := by
  rcases h with rfl | rfl <;> exact ⟨_, rfl⟩

theorem isConnective_of_counterpart {op other : Operator} (swap : op.counterpart = some other)
    (h : op.isConnective) : other.isConnective := by
  rcases h with rfl | rfl <;> cases swap <;> simp [isConnective]

theorem counterpart_isMembership {op other : Operator} (h : op.counterpart = some other) :
    other.isMembership = op.isMembership := by
  cases op <;> cases h <;> rfl

theorem counterpart_read {α : Type} {op other : Operator} (h : op.counterpart = some other)
    (args : List α) : other.read args = op.read args := by
  rw [read, read, counterpart_isMembership h]

theorem not_many_of_counterpart {op other : Operator} (h : op.counterpart = some other)
    (plain : ¬(op = .and ∨ op = .or)) : other.arity ≠ .many := by
  cases op <;> cases h <;> simp_all [arity]

theorem isConnective_of_many {op other : Operator} (h : op.counterpart = some other)
    (many : op.arity = .many) : op.isConnective := by
  by_contra plain
  have back := counterpart_counterpart h
  apply not_many_of_counterpart back ?_ many
  intro connective
  exact plain (isConnective_of_counterpart back connective)

end Operator

/-- Leaves that can carry a truth value; their negation is wrapped in NOT. -/
def Expr.isTruthLeaf : Expr → Bool
  | .value _ | .subquery _ | .identifier _ | .qualified .. | .call .. | .cast .. | .subscript .. => true
  | .caseWhen .. | .literal _ | .placeholder .. => true
  | _ => false

theorem Expr.isSpecifier_of_isTruthLeaf {e : Expr} (leaf : e.isTruthLeaf = true) :
    e.isSpecifier = false := by
  cases e <;> first | rfl | cases leaf

namespace SpecifierReading

variable {reading : SpecifierReading}

theorem invertAll_eq_mapM (args : List Expr) : reading.invertAll args = args.mapM reading.invert := by
  induction args with
  | nil => simp [invertAll, pure, Except.pure]
  | cons e rest ih => rw [invertAll, ih, List.mapM_cons]

theorem invertNode_eq (family : Family) (op : Operator) (args : List Expr) :
    reading.invertNode family op args =
      match op.counterpart with
      | some other =>
        if op = .and ∨ op = .or then args.mapM reading.invert >>= reading.predicate other
        else reading.predicate other args
      | none => .error (.noCounterpart family op args) := by
  rw [← invertAll_eq_mapM]
  rfl

theorem invertNode_eq_ok_iff {family : Family} {op : Operator} {args : List Expr} {p : Predicate} :
    reading.invertNode family op args = .ok p ↔
      ∃ other, op.counterpart = some other ∧
        ((op = .and ∨ op = .or) ∧
            (∃ negated, args.mapM reading.invert = .ok negated ∧
              reading.predicate other negated = .ok p) ∨
          ¬(op = .and ∨ op = .or) ∧ reading.predicate other args = .ok p) := by
  rw [invertNode_eq]
  cases found : op.counterpart with
  | none => simp
  | some other =>
    by_cases connective : op = .and ∨ op = .or
    · simp only [connective, if_true, Option.some.injEq, exists_eq_left', not_true_eq_false,
        false_and, or_false, true_and, bind_eq_ok_iff]
    · simp only [connective, if_false, Option.some.injEq, exists_eq_left', not_false_eq_true,
        false_and, false_or, true_and]

theorem op_of_predicate {op : Operator} {args : List Expr} {p : Predicate}
    (found : reading.predicate op args = .ok p) : p.op = op := by
  obtain ⟨_, settled, _, rfl⟩ := Predicate.assemble_eq_ok_iff.mp found
  rfl

theorem op_of_invertNode {family : Family} {op : Operator} {args : List Expr} {p : Predicate}
    (found : reading.invertNode family op args = .ok p) : op.counterpart = some p.op := by
  obtain ⟨other, swapped, ⟨_, negated, _, applied⟩ | ⟨_, applied⟩⟩ := invertNode_eq_ok_iff.mp found
  · rw [op_of_predicate applied]
    exact swapped
  · rw [op_of_predicate applied]
    exact swapped

theorem invert_complex (family : Family) (op : Operator) (args : List Expr) :
    reading.invert (.complex family op args) =
      if family.wantsScalars then .error (.notInvertible (.complex family op args))
      else Predicate.toExpr <$> reading.invertNode family op args := by
  rw [invert, bind_pure_comp]
  rfl

theorem invert_of_ofSpecifier? {e : Expr} {c : Conditions}
    (specifier : Conditions.ofSpecifier? e = some c) : reading.invert e = reading.negate c.pairs := by
  cases e <;> simp only [Conditions.ofSpecifier?, reduceCtorEq, Option.some.injEq] at specifier
  case conditions kind pairs =>
    subst specifier
    rw [invert]
  case list items =>
    rw [invert]
    split at specifier
    · rename_i pairs
      cases specifier
      rw [if_pos pairs]
    · cases specifier

inductive Negates (reading : SpecifierReading) : Expr → Expr → Prop
  | node {family op args p} : family.wantsScalars = false →
      reading.invertNode family op args = .ok p → Negates reading (.complex family op args) p.toExpr
  | truth (truth) : Negates reading (.isConstant (some truth)) (.isConstant (some !truth))
  | null : Negates reading (.isConstant none) (.isNotConstant none)
  | opposite (truth) : Negates reading (.isNotConstant truth) (.isConstant truth)
  | specifier {e c r} : Conditions.ofSpecifier? e = some c → reading.negate c.pairs = .ok r →
      Negates reading e r
  | leaf {e p} : e.isTruthLeaf = true → reading.predicate .not [e] = .ok p →
      Negates reading e p.toExpr

theorem negates_of_invert {e r : Expr} (found : reading.invert e = .ok r) : reading.Negates e r := by
  cases e
  case complex family op args =>
    rw [invert_complex] at found
    split at found
    · cases found
    · rename_i scalars
      obtain ⟨p, swapped, rfl⟩ := map_eq_ok_iff.mp found
      exact .node (by simpa using scalars) swapped
  case isConstant truth =>
    cases truth <;> rw [invert] at found <;> cases found
    · exact .null
    · exact .truth _
  case isNotConstant truth =>
    rw [invert] at found
    cases found
    exact .opposite truth
  case conditions kind pairs =>
    rw [invert_of_ofSpecifier? rfl] at found
    exact .specifier rfl found
  case list items =>
    by_cases pairs : Expr.arePairs items = true
    · have specifier : Conditions.ofSpecifier? (.list items) =
          some ⟨.pairs, items.filterMap Expr.pair?⟩ := by rw [Conditions.ofSpecifier?, if_pos pairs]
      rw [invert_of_ofSpecifier? specifier] at found
      exact .specifier specifier found
    · rw [invert, if_neg pairs] at found
      cases found
  case pattern | columnAll | aliased | ordered | constant | join =>
    rw [invert] at found
    cases found
  all_goals
    simp only [invert, bind_eq_ok_iff, pure_eq_ok_iff] at found
    obtain ⟨p, wrapped, rfl⟩ := found
    exact .leaf rfl wrapped

end SpecifierReading

theorem Predicate.absent_invert_toExpr (p : Predicate) :
    SpecifierReading.absent.invert p.toExpr = toExpr <$> p.opposite := by
  rw [toExpr, SpecifierReading.invert_complex]
  rfl

end SqlExpr
