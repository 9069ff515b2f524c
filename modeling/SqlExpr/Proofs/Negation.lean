import SqlExpr.Predicate.Guarded
import SqlExpr.Proofs.DeMorgan
import SqlExpr.Proofs.Kleene

/-!
Negation denotes the negation of truth values, through every node, specifier and connective, whatever
is flattened and unwrapped on the way.
-/

namespace SqlExpr

/-! The operators of negations are those that can be negated again. -/

theorem Predicate.counterpart_of_inverted {p q : Predicate} (found : p.inverted = .ok q) :
    ∃ other, q.op.counterpart = some other := by
  rw [Predicate.inverted, Expr.invertNode_eq_full] at found
  exact ⟨p.op, Operator.counterpart_counterpart (SpecifierReading.op_of_invertNode found)⟩

theorem Predicate.counterpart_of_negated {c : Conditions} {p : Predicate}
    (found : Predicate.ofConditions c .or true = .ok p) : ∃ other, p.op.counterpart = some other := by
  obtain ⟨ps, _, qs, inverted, joined⟩ := Predicate.ofConditions_negated_eq_ok_iff.mp found
  by_cases single : qs.length = 1
  · obtain ⟨q, rfl⟩ := List.length_eq_one_iff.mp single
    cases joined
    have every : ∀ r ∈ [p], ∃ other, r.op.counterpart = some other :=
      forall_of_mapM inverted fun _ _ _ => Predicate.counterpart_of_inverted
    exact every p (by simp)
  · obtain ⟨_, rfl⟩ := (Predicate.join_associative_iff rfl single).mp joined
    exact ⟨.and, rfl⟩

theorem Expr.counterpart_of_invert {e : Expr} {family : Family} {op : Operator} {args : List Expr}
    (found : e.invert = .ok (.complex family op args)) : ∃ other, op.counterpart = some other := by
  generalize same : Expr.complex family op args = r at found
  cases Expr.negates_of_invert found with
  | node _ swapped =>
    cases same
    exact ⟨_, Operator.counterpart_counterpart (SpecifierReading.op_of_invertNode swapped)⟩
  | truth | null | opposite => cases same
  | specifier _ negated =>
    obtain ⟨p, joined, rfl⟩ := map_eq_ok_iff.mp negated
    cases same
    exact Predicate.counterpart_of_negated joined
  | leaf _ wrapped =>
    cases same
    rw [SpecifierReading.op_of_predicate wrapped]
    exact ⟨.noop, rfl⟩

/-! Truth values. -/

theorem Predicate.eq_of_apply_plain {op : Operator} {args : List Expr} {p : Predicate}
    (few : op.arity ≠ .many) (plain : ∀ arg ∈ op.read args, arg.isSpecifier = false)
    (applied : Predicate.apply op args = .ok p) : p = ⟨op, args⟩ := by
  obtain ⟨_, settled, found, rfl⟩ := Predicate.apply_eq_ok_iff.mp applied
  rw [settle_of_plain plain] at found
  cases found
  rw [Operator.arrange_of_not_many few]

namespace Valuation

variable (V : Valuation)

theorem truth_invertNode {family : Family} {op : Operator} {args : List Expr} {p : Predicate}
    (settled : (Expr.complex family op args).Throughout Expr.isSettled)
    (each : ∀ arg ∈ op.read args, ∀ r, arg.invert = .ok r → V.truth r = (V.truth arg).not)
    (found : Expr.invertNode family op args = .ok p) :
    V.truth p.toExpr = (V.truth (.complex family op args)).not := by
  obtain ⟨accepted, plain⟩ := settled.here
  obtain ⟨other, swap, ⟨connective, negated, inverted, applied⟩ | ⟨few, applied⟩⟩ :=
    Expr.invertNode_eq_ok_iff.mp found
  · have opposite := Operator.isConnective_of_counterpart swap connective
    have many := Operator.many_of_isConnective connective
    rw [Operator.read_of_many many] at each
    have good : ∀ r ∈ negated, r.Throughout Expr.isSettled ∧ r.isSpecifier = false :=
      forall_of_mapM inverted fun arg member r found =>
        ⟨settled_closed.invert (settled.child member) found,
          Expr.isSpecifier_of_invert found⟩
    have values : negated.map V.truth = (args.map V.truth).map Truth.not := by
      rw [List.map_map]
      exact map_of_mapM inverted each
    have some : args.map V.truth ≠ [] := by
      simpa using Arity.ne_nil_of_accepts accepted
    calc V.truth p.toExpr
        = V.algebra.operate other negated (negated.map V.truth) :=
          V.algebra.eval_apply (V.folds_of_isConnective opposite) (fun r member => (good r member).1)
            (fun r member => (good r member).2) applied
      _ = (V.algebra.operate op args (args.map V.truth)).not := by
          rw [values, V.operate_not connective swap args negated some]
      _ = (V.truth (.complex family op args)).not := by
          rw [truth_complex, Operator.read_of_many many]
  · rw [← Operator.counterpart_read swap] at plain
    rw [Predicate.eq_of_apply_plain (Operator.not_many_of_counterpart swap few) plain applied]
    exact V.truth_counterpart swap few accepted

theorem truth_join {op : Operator} (connective : op.isConnective) {ps : List Predicate}
    {p : Predicate} (settled : ∀ q ∈ ps, q.toExpr.Throughout Expr.isSettled)
    (joined : Predicate.join op ps = .ok p) (args : List Expr) :
    V.truth p.toExpr = V.algebra.operate op args (ps.map fun q => V.truth q.toExpr) := by
  have some := (Predicate.exists_join_iff
    (Operator.isAssociative_of_isConnective connective)).mp ⟨p, joined⟩
  by_cases single : ps.length = 1
  · obtain ⟨q, rfl⟩ := List.length_eq_one_iff.mp single
    cases joined
    rw [List.map_singleton, V.operate_connective connective]
    rfl
  · rw [Predicate.join_of_length_ne_one single] at joined
    have good : ∀ arg ∈ ps.map Predicate.toExpr,
        arg.Throughout Expr.isSettled ∧ arg.isSpecifier = false := by
      rw [List.forall_mem_map]
      intro q member
      exact ⟨settled q member, rfl⟩
    have value : V.truth p.toExpr = V.algebra.operate op (ps.map Predicate.toExpr)
        ((ps.map Predicate.toExpr).map V.truth) :=
      V.algebra.eval_apply (V.folds_of_isConnective connective)
        (fun arg member => (good arg member).1) (fun arg member => (good arg member).2) joined
    rw [value, List.map_map]
    exact V.operate_congr connective _ _ (by simpa using some)

/-- A specifier denotes its predicates joined by AND, its negation their negations joined by OR. -/
theorem truth_specifier {e : Expr} {c : Conditions} {r : Predicate}
    (settled : e.Throughout Expr.isSettled) (specifier : Conditions.ofSpecifier? e = some c)
    (each : ∀ ps, predicates c.pairs = .ok ps → ∀ p ∈ ps, ∀ q, p.inverted = .ok q →
      V.truth q.toExpr = (V.truth p.toExpr).not)
    (found : Predicate.ofConditions c .or true = .ok r) : V.truth r.toExpr = (V.truth e).not := by
  obtain ⟨ps, predicates, qs, inverted, joined⟩ :=
    Predicate.ofConditions_negated_eq_ok_iff.mp found
  have good := settled_closed.of_predicates settled specifier predicates
  have negated : ∀ q ∈ qs, q.toExpr.Throughout Expr.isSettled := by
    refine forall_of_mapM inverted ?_
    intro p member q found
    exact settled_closed.inverted (good p member) found
  have values : (qs.map fun q => V.truth q.toExpr) =
      (ps.map fun p => V.truth p.toExpr).map Truth.not := by
    rw [List.map_map]
    exact map_of_mapM inverted (each ps predicates)
  have some : ps ≠ [] := by
    rintro rfl
    cases inverted
    exact (Predicate.exists_join_iff rfl).mp ⟨r, joined⟩ rfl
  obtain ⟨p, conjoined⟩ : ∃ p, Predicate.join .and ps = .ok p :=
    (Predicate.exists_join_iff rfl).mpr some
  have stands : e.resolve = .ok p.toExpr := by
    rw [Expr.resolve_of_ofSpecifier? specifier, predicates]
    simp [conjoined]
  have whole : V.truth e = V.truth p.toExpr := V.algebra.eval_resolve stands
  rw [whole, V.truth_join (.inl rfl) good conjoined [], V.truth_join (.inr rfl) negated joined [],
    values]
  exact V.operate_not (.inl rfl) rfl [] [] (by simpa using some)

theorem truth_invert {e r : Expr} (settled : e.Throughout Expr.isSettled)
    (found : e.invert = .ok r) : V.truth r = (V.truth e).not := by
  induction e using Expr.nestingInduction generalizing r with
  | step e below inside =>
    cases Expr.negates_of_invert found with
    | node _ swapped =>
      rw [← Expr.invertNode_eq_full] at swapped
      refine V.truth_invertNode settled ?_ swapped
      intro arg member r inverted
      have within := Operator.mem_of_mem_read member
      exact inside arg within (Expr.nesting_le_of_mem_read member) (settled.child within) inverted
    | truth constant =>
      rw [V.truth_leaf rfl rfl, V.truth_leaf rfl rfl]
      cases constant <;> rfl
    | null =>
      rw [V.truth_leaf rfl rfl, V.truth_leaf rfl rfl]
      rfl
    | opposite constant =>
      rw [V.truth_leaf rfl rfl, V.truth_leaf rfl rfl]
      exact (Truth.not_not _).symm
    | specifier specifier _ =>
      rw [Expr.invert_of_ofSpecifier? specifier, map_eq_ok_iff] at found
      obtain ⟨p, negated, rfl⟩ := found
      refine V.truth_specifier settled specifier ?_ negated
      intro ps predicates p member q inverted
      have good := settled_closed.of_predicates settled specifier predicates p member
      refine below p.toExpr (nesting_predicates_lt specifier predicates p member).1 good ?_
      rw [Predicate.invert_toExpr, inverted]
      rfl
    | leaf truth wrapped =>
      have plain := Expr.isSpecifier_of_isTruthLeaf truth
      rw [Predicate.eq_of_apply_plain (by decide)
        (by simpa [Operator.read, Operator.isMembership] using plain) wrapped]
      exact V.truth_not .boolean e

theorem truth_apply_settled {op other : Operator} (swap : op.counterpart = some other)
    {family : Family} {args : List Expr} {p : Predicate}
    (settled : (Expr.complex family op args).Throughout Expr.isSettled)
    (applied : Predicate.apply op args = .ok p) :
    V.truth p.toExpr = V.truth (.complex family op args) := by
  have plain := settled.here.2
  by_cases many : op.arity = .many
  · have connective := Operator.isConnective_of_many swap many
    rw [Operator.read_of_many many] at plain
    rw [truth_complex, Operator.read_of_many many]
    exact V.algebra.eval_apply (V.folds_of_isConnective connective)
      (fun arg member => settled.child member) plain applied
  · rw [Predicate.eq_of_apply_plain many plain applied]
    exact (V.truth_complex .boolean op args).trans (V.truth_complex family op args).symm

theorem truth_negation {e : Expr} {q : Predicate} (settled : e.Throughout Expr.isSettled)
    (found : Predicate.negation e = .ok q) : V.truth q.toExpr = (V.truth e).not := by
  rw [Predicate.negation, bind_eq_ok_iff] at found
  obtain ⟨r, inverted, wrapped⟩ := found
  have good := settled_closed.invert settled inverted
  rw [← V.truth_invert settled inverted]
  split at wrapped
  · obtain ⟨other, swap⟩ := Expr.counterpart_of_invert inverted
    exact V.truth_apply_settled swap good wrapped
  · -- A negation that is no operator node, such as a constant, is wrapped in NOOP.
    have plain := Expr.isSpecifier_of_invert inverted
    rw [Predicate.eq_of_apply_plain (by decide)
      (by simpa [Operator.read, Operator.isMembership] using plain) wrapped]
    exact V.truth_noop .boolean _

/-- The negations of a built expression, of its node and as a predicate denote the negation of what
the expression denotes. -/
theorem truth_of_negated {e : Expr} (built : e.Built) :
    (∀ r, e.invert = .ok r → V.truth r = (V.truth e).not) ∧
      (∀ family op args p, e = .complex family op args → Expr.invertNode family op args = .ok p →
        V.truth p.toExpr = (V.truth e).not) ∧
      ∀ p, Predicate.negation e = .ok p → V.truth p.toExpr = (V.truth e).not := by
  have settled := built.throughout
  refine ⟨fun r => V.truth_invert settled, ?_, fun p => V.truth_negation settled⟩
  rintro family op args p rfl found
  refine V.truth_invertNode settled ?_ found
  intro arg member r
  exact V.truth_invert (settled.child (Operator.mem_of_mem_read member))

def agreeable : Valuation where
  leaf _ := .unknown
  holds op _ :=
    match op with
    | .eq | .lt | .lte | .like | .ilike | .regex | .regexCi | .isIn | .is => .holds
    | _ => .fails
  negative op other args comparison swap := by
    cases op <;> cases comparison <;> cases swap <;> rfl

def comparisonAndMissing : Expr :=
  .complex .generic .and [.complex .boolean .eq [.identifier "a", .value (.integer 1)],
    .complex .boolean .is [.identifier "b", .value .null]]

theorem truth_of_negated_agreeable :
    ∃ r, comparisonAndMissing.invert = .ok r ∧
      agreeable.truth r = (agreeable.truth comparisonAndMissing).not := by
  have compared : Expr.apply .boolean .eq [.identifier "a", .value (.integer 1)] =
      .ok (.complex .boolean .eq [.identifier "a", .value (.integer 1)]) := rfl
  have conditions : (Expr.conditions .mapping [(.identifier "b", .value .null)]).Built :=
    .plain rfl (by simp [Expr.children, Expr.sides, Expr.Built.value, Expr.Built.identifier])
  have joined : Expr.apply .generic .and [.complex .boolean .eq [.identifier "a", .value (.integer 1)],
      .conditions .mapping [(.identifier "b", .value .null)]] = .ok comparisonAndMissing := rfl
  have comparison := Expr.Built.operator
    (by simp [Expr.Built.value, Expr.Built.identifier]) compared
  have built : comparisonAndMissing.Built :=
    .operator (by simp [comparison, conditions]) joined
  exact ⟨_, rfl, (truth_of_negated agreeable built).1 _ rfl⟩

end Valuation

end SqlExpr
