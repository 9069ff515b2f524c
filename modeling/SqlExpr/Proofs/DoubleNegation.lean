import SqlExpr.Proofs.Negation

/-!
When a negation can be negated again. The negation of NOT is its operand in NOOP, which AND and OR
take off: the operand stands among their own then, and is negated by itself.
-/

namespace SqlExpr

namespace Expr

def Invertible (e : Expr) : Prop :=
  ∃ r, e.invert = .ok r

/-- NOT of the negand is an operand of the connective, in a node that the negation of AND and OR
descends to. -/
inductive NegandUnder (connective : Operator) (negand : Expr) : Expr → Prop
  | operand {family inner : Family} {args : List Expr} : connective.isConnective →
      .complex inner .not [negand] ∈ args →
      NegandUnder connective negand (.complex family connective args)
  | inside {family : Family} {op : Operator} {args : List Expr} {arg : Expr} : op.isConnective →
      arg ∈ args → NegandUnder connective negand arg →
      NegandUnder connective negand (.complex family op args)

/-- What the negation of an operand NOT contributes to the opposite connective can be negated. -/
def NegandsInvertible (e : Expr) : Prop :=
  ∀ op other negand, op.counterpart = some other → NegandUnder op negand e →
    ∀ operand ∈ spliced other true (.complex .boolean .noop [negand]), operand.Invertible

/-- The same for an operand of the connective. -/
def OperandInvertible (other : Operator) (arg : Expr) : Prop :=
  (∀ family negand, arg = .complex family .not [negand] →
    ∀ operand ∈ spliced other true (.complex .boolean .noop [negand]), operand.Invertible) ∧
  arg.NegandsInvertible

theorem negandsInvertible_of_not_connective {e : Expr}
    (other : ∀ family op args, e = .complex family op args → ¬op.isConnective) :
    e.NegandsInvertible := by
  intro op opposite negand _ under
  cases under with
  | operand connective _ => exact absurd connective (other _ _ _ rfl)
  | inside connective _ _ => exact absurd connective (other _ _ _ rfl)

theorem negandsInvertible_complex_iff {family : Family} {op other : Operator} {args : List Expr}
    (connective : op.isConnective) (swap : op.counterpart = some other) :
    (complex family op args).NegandsInvertible ↔ ∀ arg ∈ args, arg.OperandInvertible other := by
  constructor
  · intro whole arg member
    refine ⟨?_, ?_⟩
    · rintro inner negand rfl
      exact whole op other negand swap (.operand connective member)
    · intro op' other' negand swap' under
      exact whole op' other' negand swap' (.inside connective member under)
  · intro every op' other' negand swap' under
    cases under with
    | operand _ member =>
      rw [swap] at swap'
      cases swap'
      exact (every _ member).1 _ negand rfl
    | inside _ member under => exact (every _ member).2 op' other' negand swap' under

end Expr

/-! Nodes of operators other than AND and OR. -/

namespace Predicate

theorem exists_apply_counterpart {op other : Operator} {args : List Expr} {p : Predicate}
    (swap : op.counterpart = some other) (plain : ∀ arg ∈ op.read args, arg.isSpecifier = false)
    (applied : apply other args = .ok p) : ∃ q, apply op args = .ok q := by
  obtain ⟨checked, _⟩ := apply_eq_ok_iff.mp applied
  rw [checkOperands_eq_ok_iff, Operator.refusesTruth_counterpart swap,
    Operator.counterpart_arity swap, ← checkOperands_eq_ok_iff] at checked
  exact ⟨_, apply_eq_ok_iff.mpr ⟨checked, args, settle_of_plain plain, rfl⟩⟩

theorem invertible_iff {p : Predicate} : p.toExpr.Invertible ↔ ∃ q, p.inverted = .ok q := by
  simp [Expr.Invertible, invert_toExpr]

theorem invertible_swapped {op other : Operator} {args : List Expr} {p : Predicate}
    (swap : op.counterpart = some other) (few : ¬op.isConnective)
    (plain : ∀ arg ∈ op.read args, arg.isSpecifier = false) (applied : apply other args = .ok p) :
    p.toExpr.Invertible := by
  have back := Operator.counterpart_counterpart swap
  have few' : ¬other.isConnective := fun connective =>
    few (Operator.isConnective_of_counterpart back connective)
  have same : p = ⟨other, args⟩ := by
    refine eq_of_apply_plain (Operator.not_many_of_counterpart swap few) ?_ applied
    rwa [Operator.counterpart_read swap]
  obtain ⟨q, found⟩ := exists_apply_counterpart swap plain applied
  rw [invertible_iff, same]
  exact ⟨q, Expr.invertNode_eq_ok_iff.mpr ⟨op, back, .inr ⟨few', found⟩⟩⟩

theorem invertible_connective_iff {p : Predicate} (connective : p.op.isConnective)
    (some : p.args ≠ []) : p.toExpr.Invertible ↔ ∀ arg ∈ p.args, arg.Invertible := by
  obtain ⟨other, swap⟩ := Operator.exists_counterpart connective
  rw [invertible_iff]
  simp only [inverted_of_isConnective connective swap, Expr.Invertible, ← exists_mapM_iff]
  constructor
  · rintro ⟨_, negated, found, _⟩
    exact ⟨negated, found⟩
  · rintro ⟨negated, found⟩
    exact ⟨_, negated, found, ne_nil_of_mapM found some, rfl⟩

theorem spliced_invertible_iff {op : Operator} (connective : op.isConnective) {p : Predicate}
    (bare : p.op ≠ .noop) (populated : p.toExpr.isVacant = false) :
    (∀ operand ∈ spliced op true p.toExpr, operand.Invertible) ↔ p.toExpr.Invertible := by
  by_cases same : p.op = op
  · subst same
    have some : p.args ≠ [] := Expr.isVacant_complex.mp populated connective
    rw [toExpr, spliced_same (Operator.many_of_isConnective connective), ← toExpr,
      invertible_connective_iff connective some]
  · have single : spliced op true p.toExpr = [p.toExpr] := by
      rw [spliced, toExpr, withoutNoop_of_ne bare]
      simp [same]
    rw [single]
    simp

end Predicate

namespace Expr

theorem invert_not {family : Family} {negand r : Expr} (plain : negand.isSpecifier = false)
    (found : (complex family .not [negand]).invert = .ok r) :
    r = .complex .boolean .noop [negand] := by
  cases negates_of_invert found with
  | node _ swapped =>
    rw [← invertNode_eq_full] at swapped
    obtain ⟨other, swap, ⟨connective, _⟩ | ⟨_, applied⟩⟩ := invertNode_eq_ok_iff.mp swapped
    · rcases connective with connective | connective <;> cases connective
    · cases swap
      rw [Predicate.eq_of_apply_plain (by decide)
        (by simpa [Operator.read, Operator.isMembership] using plain) applied]
      rfl
  | specifier specifier _ => cases specifier
  | leaf truth _ => cases truth

theorem operandInvertible_not_iff {other : Operator} {family : Family} {negand : Expr} :
    (complex family .not [negand]).OperandInvertible other ↔
      ∀ operand ∈ spliced other true (.complex .boolean .noop [negand]), operand.Invertible := by
  constructor
  · rintro ⟨bared, _⟩
    exact bared family negand rfl
  · intro bared
    refine ⟨?_, ?_⟩
    · rintro _ _ same
      cases same
      exact bared
    · apply negandsInvertible_of_not_connective
      rintro _ _ _ same (rfl | rfl) <;> cases same

theorem operandInvertible_iff_of_ne {other : Operator} {arg : Expr}
    (bare : ∀ family negand, arg ≠ .complex family .not [negand]) :
    arg.OperandInvertible other ↔ arg.NegandsInvertible := by
  refine ⟨fun whole => whole.2, fun inside => ⟨?_, inside⟩⟩
  intro family negand same
  exact absurd same (bare family negand)

/-- What the negation of an operand contributes to the opposite connective can be negated just when
the operand meets its condition. -/
theorem spliced_invert_iff {other : Operator} (connective : other.isConnective) {arg r : Expr}
    (settled : arg.Throughout isSettled) (plain : arg.isSpecifier = false)
    (found : arg.invert = .ok r) (again : r.Invertible ↔ arg.NegandsInvertible) :
    (∀ operand ∈ spliced other true r, operand.Invertible) ↔ arg.OperandInvertible other := by
  have populated := (settled_closed.invert settled found).here.isVacant_eq_false
  cases negates_of_invert found with
  | node scalars swapped =>
    rename_i family op args p
    have swap := SpecifierReading.op_of_invertNode swapped
    by_cases negation : op = .not
    · subst negation
      obtain ⟨counted, plain⟩ := settled.here
      have single : args.length = 1 := by simpa [Operator.arity, Arity.accepts] using counted
      obtain ⟨negand, rfl⟩ := List.length_eq_one_iff.mp single
      rw [invert_not (plain negand (by simp [Operator.read, Operator.isMembership])) found]
      exact operandInvertible_not_iff.symm
    · have bare : p.op ≠ .noop := by
        intro same
        rw [same] at swap
        cases Operator.counterpart_counterpart swap
        exact negation rfl
      rw [Predicate.spliced_invertible_iff connective bare populated, again]
      refine (operandInvertible_iff_of_ne ?_).symm
      rintro _ _ same
      cases same
      exact negation rfl
  | truth | null | opposite =>
    rw [operandInvertible_iff_of_ne (by simp), ← again]
    simp [spliced, SqlExpr.withoutNoop]
  | specifier specifier _ =>
    rw [isSpecifier_of_ofSpecifier? specifier] at plain
    cases plain
  | leaf truth wrapped =>
    have negated := SpecifierReading.op_of_predicate wrapped
    rw [Predicate.spliced_invertible_iff connective (by simp [negated]) populated, again]
    refine (operandInvertible_iff_of_ne ?_).symm
    rintro _ _ rfl
    cases truth

theorem invertible_isConstant (truth : Option Bool) : (isConstant truth).Invertible := by
  cases truth <;> exact ⟨_, rfl⟩

theorem invertible_invert_iff {e r : Expr} (settled : e.Throughout isSettled)
    (plain : e.isSpecifier = false) (found : e.invert = .ok r) :
    r.Invertible ↔ e.NegandsInvertible := by
  induction e using childrenInduction generalizing r with
  | step e ih =>
    cases negates_of_invert found with
    | node scalars swapped =>
      rename_i family op args p
      have operands := settled.here.2
      rw [← invertNode_eq_full] at swapped
      obtain ⟨other, swap, ⟨connective, negated, inverted, applied⟩ | ⟨few, applied⟩⟩ :=
        invertNode_eq_ok_iff.mp swapped
      · have opposite := Operator.isConnective_of_counterpart swap connective
        rw [Operator.read_of_many (Operator.many_of_isConnective connective)] at operands
        have each : ∀ s ∈ negated, s.isSpecifier = false :=
          forall_of_mapM inverted fun _ _ _ => isSpecifier_of_invert
        obtain ⟨_, rfl⟩ := (Predicate.apply_associative_iff
          (Operator.isAssociative_of_isConnective opposite) each).mp applied
        have filled := (settled_closed.invert settled found).here.isVacant_eq_false
        rw [Predicate.invertible_connective_iff opposite (isVacant_complex.mp filled opposite),
          negandsInvertible_complex_iff connective swap, List.forall_mem_flatMap]
        refine forall_mem_iff_of_mapM inverted ?_
        intro arg member s invert
        have inside := settled.child member
        exact spliced_invert_iff opposite inside (operands arg member) invert
          (ih arg member inside (operands arg member) invert)
      · refine iff_of_true (Predicate.invertible_swapped swap few operands applied) ?_
        apply negandsInvertible_of_not_connective
        rintro _ _ _ same
        cases same
        exact few
    | truth | opposite =>
      refine iff_of_true (invertible_isConstant _) ?_
      apply negandsInvertible_of_not_connective
      rintro _ _ _ same
      cases same
    | null =>
      refine iff_of_true ⟨_, rfl⟩ ?_
      apply negandsInvertible_of_not_connective
      rintro _ _ _ same
      cases same
    | specifier specifier _ =>
      rw [isSpecifier_of_ofSpecifier? specifier] at plain
      cases plain
    | leaf truth wrapped =>
      have single : ∀ arg ∈ Operator.noop.read [e], arg.isSpecifier = false := by
        simpa [Operator.read, Operator.isMembership] using plain
      have swap : Operator.noop.counterpart = some .not := rfl
      refine iff_of_true (Predicate.invertible_swapped swap ?_ single wrapped) ?_
      · rintro (connective | connective) <;> cases connective
      apply negandsInvertible_of_not_connective
      rintro _ _ _ rfl
      cases truth

end Expr

namespace Predicate

/-- A negation can be negated again just when each operand that the negation of an operand NOT lays
bare can be negated, and then has the truth value of what was negated first. -/
theorem inverted_inverted {p q : Predicate} (built : p.toExpr.Built) (found : p.inverted = .ok q) :
    ((∃ r, q.inverted = .ok r) ↔ p.toExpr.NegandsInvertible) ∧
      ∀ r, q.inverted = .ok r → ∀ V : Valuation, V.truth r.toExpr = V.truth p.toExpr := by
  have first : p.toExpr.invert = .ok q.toExpr := by
    rw [invert_toExpr, found]
    rfl
  constructor
  · rw [← invertible_iff]
    exact Expr.invertible_invert_iff built.throughout rfl first
  · intro r again V
    have second : q.toExpr.invert = .ok r.toExpr := by
      rw [invert_toExpr, again]
      rfl
    rw [V.truth_invert (settled_closed.invert built.throughout first) second,
      V.truth_invert built.throughout first, Truth.not_not]

def excluding (negand : Expr) : Predicate :=
  ⟨.and, [.complex .boolean .not [negand], .identifier "b"]⟩

theorem built_excluding {negand : Expr} (built : negand.Built)
    (plain : negand.isSpecifier = false) :
    (excluding negand).toExpr.Built := by
  have applied : Expr.apply .boolean .not [negand] = .ok (.complex .boolean .not [negand]) := by
    refine Expr.apply_eq_ok_iff.mpr ⟨rfl, [negand], settle_of_plain ?_, rfl⟩
    simpa [Operator.read, Operator.isMembership] using plain
  have negated : (Expr.complex .boolean .not [negand]).Built :=
    .operator (by simpa using built) applied
  have joined : Predicate.apply .and (excluding negand).args = .ok (excluding negand) := rfl
  exact .toExpr (by simp [excluding, negated, Expr.Built.identifier]) joined

def columnIsOne : Expr :=
  .complex .boolean .eq [.identifier "a", .value (.integer 1)]

def columnPlusOne : Expr :=
  .complex .numeric .add [.identifier "a", .value (.integer 1)]

theorem built_columnIsOne : columnIsOne.Built := by
  have applied : Expr.apply .boolean .eq [.identifier "a", .value (.integer 1)] =
      .ok columnIsOne := rfl
  exact .operator (by simp [Expr.Built.identifier, Expr.Built.value]) applied

theorem built_columnPlusOne : columnPlusOne.Built := by
  have applied : Expr.apply .numeric .add [.identifier "a", .value (.integer 1)] =
      .ok columnPlusOne := rfl
  exact .operator (by simp [Expr.Built.identifier, Expr.Built.value]) applied

theorem inverted_inverted_comparison :
    (excluding columnIsOne).toExpr.NegandsInvertible ∧
      ∀ V : Valuation, V.truth (.complex .boolean .and
          [.complex .boolean .neq [.identifier "a", .value (.integer 1)], .identifier "b"]) =
        V.truth (excluding columnIsOne).toExpr := by
  have once : (excluding columnIsOne).inverted =
      .ok ⟨.or, [columnIsOne, .complex .boolean .not [.identifier "b"]]⟩ := rfl
  have whole := inverted_inverted (built_excluding built_columnIsOne rfl) once
  exact ⟨whole.1.mp ⟨_, rfl⟩, whole.2 ⟨.and, _⟩ rfl⟩

/-- A sum that is laid bare has no negation. -/
theorem not_inverted_inverted_sum :
    ¬ ∀ p q : Predicate, p.toExpr.Built → p.inverted = .ok q →
      ∃ r, q.inverted = .ok r ∧ ∀ V : Valuation, V.truth r.toExpr = V.truth p.toExpr := by
  intro always
  have once : (excluding columnPlusOne).inverted =
      .ok ⟨.or, [columnPlusOne, .complex .boolean .not [.identifier "b"]]⟩ := rfl
  obtain ⟨r, again, _⟩ := always _ _ (built_excluding built_columnPlusOne rfl) once
  have refused : Predicate.inverted ⟨.or, [columnPlusOne, .complex .boolean .not [.identifier "b"]]⟩ =
      .error (.notInvertible columnPlusOne) := rfl
  rw [refused] at again
  cases again

end Predicate

end SqlExpr
