import SqlExpr.Proofs.Built

/-!
Negating the predicates of a specifier before they are joined, and negating what they are joined to.
Both ways give one tree.
-/

namespace SqlExpr

namespace Expr

/-- A connective without operands, which no operator makes. -/
def isVacant : Expr → Bool
  | complex _ .and [] | complex _ .or [] => true
  | _ => false

theorem isVacant_complex {family : Family} {op : Operator} {args : List Expr} :
    (complex family op args).isVacant = false ↔ (op.isConnective → args ≠ []) := by
  unfold isVacant Operator.isConnective
  split
  · rename_i same
    cases same
    simp
  · rename_i same
    cases same
    simp
  · rename_i notAnd notOr
    constructor
    · rintro - (rfl | rfl) rfl
      · exact notAnd family rfl
      · exact notOr family rfl
    · exact fun _ => rfl

end Expr

theorem Expr.isSettled.isVacant_eq_false {e : Expr} (settled : e.isSettled) : e.isVacant = false := by
  cases e
  case complex family op args =>
    rw [isVacant_complex]
    intro connective
    exact (settled.operands (Operator.many_of_isConnective connective)).1
  all_goals rfl

theorem Expr.Built.populated {e : Expr} (h : e.Built) : e.Throughout (·.isVacant = false) :=
  h.throughout.mono fun _ settled => settled.isVacant_eq_false

theorem spliced_ne_nil_of_populated {op : Operator} (connective : op.isConnective) {e : Expr}
    (populated : e.Throughout (·.isVacant = false)) : spliced op true e ≠ [] := by
  apply spliced_ne_nil
  intro family args found
  have inner := populated.withoutNoop.here
  rw [found, Expr.isVacant_complex] at inner
  exact inner connective

theorem vacancy_nodeProperty : NodeProperty (·.isVacant = false) where
  plain e noOperator := by
    cases e <;> first | rfl | cases noOperator
  made family op settled checked every _ := by
    have accepted := (checkOperands_eq_ok_iff.mp checked).2
    rw [Expr.isVacant_complex]
    intro connective
    rw [Operator.arrange_of_many (Operator.many_of_isConnective connective),
      flatten_of_isAssociative (Operator.isAssociative_of_isConnective connective)]
    obtain ⟨first, others, rfl⟩ := List.exists_cons_of_ne_nil (Arity.ne_nil_of_accepts accepted)
    have contributed := spliced_ne_nil_of_populated connective (every first (by simp))
    simp [contributed]
  swapped family op other args swap few _ := by
    rw [Expr.isVacant_complex]
    intro connective
    have back := Operator.counterpart_counterpart swap
    exact absurd (Operator.isConnective_of_counterpart back connective) few

/-! Operators that may be regrouped, on operands that are no specifiers. -/

theorem Expr.isSpecifier_of_invert {e r : Expr} (found : e.invert = .ok r) :
    r.isSpecifier = false := by
  cases negates_of_invert found with
  | node | leaf | truth | null | opposite => rfl
  | specifier _ negated =>
    obtain ⟨p, _, rfl⟩ := map_eq_ok_iff.mp negated
    rfl

namespace Predicate

theorem apply_associative_iff {op : Operator} (associative : op.isAssociative = true)
    {args : List Expr} (plain : ∀ arg ∈ args, arg.isSpecifier = false) {p : Predicate} :
    apply op args = .ok p ↔ args ≠ [] ∧ p = ⟨op, args.flatMap (spliced op true)⟩ := by
  have many := Operator.many_of_isAssociative associative
  have scalars : refusesTruth .boolean op = false := refusesTruth_of_many many .boolean
  have counted : checkOperands .boolean op args = .ok () ↔ args ≠ [] := by
    rw [checkOperands_eq_ok_iff, many, scalars]
    cases args <;> simp [Arity.accepts]
  rw [apply_eq_ok_iff, counted, settle_of_plain (by rwa [Operator.read_of_many many]),
    ← flatten_of_isAssociative associative, ← Operator.arrange_of_many many]
  simp

theorem join_associative_iff {op : Operator} (associative : op.isAssociative = true)
    {ps : List Predicate} (several : ps.length ≠ 1) {p : Predicate} :
    join op ps = .ok p ↔ ps ≠ [] ∧ p = ⟨op, ps.flatMap fun q => spliced op true q.toExpr⟩ := by
  have plain : ∀ arg ∈ ps.map toExpr, arg.isSpecifier = false := by
    rw [List.forall_mem_map]
    intro q _
    exact rfl
  rw [join_of_length_ne_one several, apply_associative_iff associative plain, List.flatMap_map]
  simp

theorem exists_join_iff {op : Operator} (associative : op.isAssociative = true)
    {ps : List Predicate} :
    (∃ p, join op ps = .ok p) ↔ ps ≠ [] := by
  by_cases single : ps.length = 1
  · obtain ⟨p, rfl⟩ := List.length_eq_one_iff.mp single
    simp [join]
  · simp [join_associative_iff associative single]

theorem spliced_toExpr (op : Operator) {p : Predicate} (positive : p.op.isPositive = true) :
    spliced op true p.toExpr = if p.op = op then p.args else [p.toExpr] := by
  have wrapper : p.op ≠ .noop := by
    intro same
    rw [same] at positive
    cases positive
  rw [spliced, toExpr, withoutNoop_of_ne wrapper]
  simp

theorem inverted_of_isConnective {p : Predicate} {other : Operator} (connective : p.op.isConnective)
    (swap : p.op.counterpart = some other) {q : Predicate} :
    p.inverted = .ok q ↔ ∃ negated, p.args.mapM Expr.invert = .ok negated ∧ negated ≠ [] ∧
      q = ⟨other, negated.flatMap (spliced other true)⟩ := by
  have opposite := Operator.isConnective_of_counterpart swap connective
  rw [inverted, Expr.invertNode_eq_ok_iff]
  simp only [swap, connective, not_true_eq_false, false_and, or_false, true_and, Option.some.injEq,
    exists_eq_left']
  refine exists_congr fun negated => and_congr_right fun found => ?_
  apply apply_associative_iff (Operator.isAssociative_of_isConnective opposite)
  exact forall_of_mapM found fun _ _ _ => Expr.isSpecifier_of_invert

/-- What the negation of a predicate contributes to a connective is contributed by the negations of
what the predicate contributes to the opposite connective. -/
theorem spliced_inverted_iff {op other : Operator} (connective : op.isConnective)
    (swap : op.counterpart = some other) {p : Predicate} (positive : p.op.isPositive = true)
    (populated : p.toExpr.isVacant = false) (flat : List Expr) :
    (∃ q, p.inverted = .ok q ∧ spliced other true q.toExpr = flat) ↔
      ∃ negated, (spliced op true p.toExpr).mapM Expr.invert = .ok negated ∧
        negated.flatMap (spliced other true) = flat := by
  have opposite := Operator.isConnective_of_counterpart swap connective
  rw [spliced_toExpr op positive]
  -- A predicate of the connective is taken in, and so is its negation by the opposite connective; any
  -- other predicate and its negation stay one operand.
  by_cases same : p.op = op
  · subst same
    have filled : p.args ≠ [] := Expr.isVacant_complex.mp populated connective
    rw [if_pos rfl]
    constructor
    · rintro ⟨q, found, rfl⟩
      obtain ⟨negated, each, _, rfl⟩ := (inverted_of_isConnective connective swap).mp found
      refine ⟨negated, each, ?_⟩
      exact (spliced_same (Operator.many_of_isConnective opposite) .boolean _).symm
    · rintro ⟨negated, each, rfl⟩
      have length := (mapM_eq_ok_iff.mp each).length_eq
      have some : negated ≠ [] := by
        rintro rfl
        exact filled (List.length_eq_zero_iff.mp length)
      refine ⟨_, (inverted_of_isConnective connective swap).mpr ⟨negated, each, some, rfl⟩, ?_⟩
      exact spliced_same (Operator.many_of_isConnective opposite) .boolean _
  · rw [if_neg same, List.mapM_cons, invert_toExpr]
    cases p.inverted with
    | error e => simp
    | ok q => simp

section Joining

variable {op other : Operator} (connective : op.isConnective) (swap : op.counterpart = some other)

include connective swap

theorem flatMap_inverted_iff {ps : List Predicate}
    (every : ∀ p ∈ ps, p.op.isPositive = true ∧ p.toExpr.isVacant = false) (flat : List Expr) :
    (∃ qs, ps.mapM inverted = .ok qs ∧ qs.flatMap (fun q => spliced other true q.toExpr) = flat) ↔
      ∃ negated, (ps.flatMap fun p => spliced op true p.toExpr).mapM Expr.invert = .ok negated ∧
        negated.flatMap (spliced other true) = flat := by
  induction ps generalizing flat with
  | nil => simp
  | cons p rest ih =>
    obtain ⟨positive, populated⟩ := every p (by simp)
    have ih := ih fun q member => every q (by simp [member])
    have here := spliced_inverted_iff connective swap positive populated
    simp only [List.mapM_cons, List.flatMap_cons, List.mapM_append, bind_eq_ok_iff, pure_eq_ok_iff]
    constructor
    · rintro ⟨_, ⟨q, head, qs, tail, rfl⟩, rfl⟩
      obtain ⟨first, each, same⟩ := (here _).mp ⟨q, head, rfl⟩
      obtain ⟨later, others, alike⟩ := (ih _).mp ⟨qs, tail, rfl⟩
      refine ⟨first ++ later, ⟨first, each, later, others, rfl⟩, ?_⟩
      rw [List.flatMap_append, same, alike, List.flatMap_cons]
    · rintro ⟨_, ⟨first, each, later, others, rfl⟩, rfl⟩
      obtain ⟨q, head, same⟩ := (here _).mpr ⟨first, each, rfl⟩
      obtain ⟨qs, tail, alike⟩ := (ih _).mpr ⟨later, others, rfl⟩
      refine ⟨q :: qs, ⟨q, head, qs, tail, rfl⟩, ?_⟩
      rw [List.flatMap_append, List.flatMap_cons, same, alike]

/-- Joining and then negating is negating and then joining by the opposite connective. -/
theorem join_inverted_iff {ps : List Predicate}
    (every : ∀ p ∈ ps, p.op.isPositive = true ∧ p.toExpr.Throughout (·.isVacant = false))
    {e : Predicate} :
    (∃ qs, ps.mapM inverted = .ok qs ∧ join other qs = .ok e) ↔
      ∃ p, join op ps = .ok p ∧ p.inverted = .ok e := by
  have first := Operator.isAssociative_of_isConnective connective
  have second := Operator.isAssociative_of_isConnective
    (Operator.isConnective_of_counterpart swap connective)
  -- A single predicate is not joined, so that the connective does not matter.
  by_cases single : ps.length = 1
  · obtain ⟨p, rfl⟩ := List.length_eq_one_iff.mp single
    cases found : p.inverted with
    | error failure => simp [join, found]
    | ok q => simp [join, found]
  · have alike := flatMap_inverted_iff connective swap fun p member =>
      ⟨(every p member).1, (every p member).2.here⟩
    have filled : ps ≠ [] → (ps.flatMap fun p => spliced op true p.toExpr) ≠ [] := by
      intro some
      obtain ⟨p, rest, rfl⟩ := List.exists_cons_of_ne_nil some
      have contributed := spliced_ne_nil_of_populated connective (every p (by simp)).2
      simp [contributed]
    constructor
    · rintro ⟨qs, each, joined⟩
      have length := (mapM_eq_ok_iff.mp each).length_eq
      obtain ⟨some, rfl⟩ := (join_associative_iff second (by omega)).mp joined
      have some : ps ≠ [] := by
        rintro rfl
        exact some (List.length_eq_zero_iff.mp length.symm)
      obtain ⟨negated, inverted, same⟩ := (alike _).mp ⟨qs, each, rfl⟩
      refine ⟨_, (join_associative_iff first single).mpr ⟨some, rfl⟩, ?_⟩
      rw [inverted_of_isConnective connective swap]
      refine ⟨negated, inverted, ?_, by rw [same]⟩
      rintro rfl
      exact filled some (List.length_eq_zero_iff.mp (mapM_eq_ok_iff.mp inverted).length_eq)
    · rintro ⟨p, joined, found⟩
      obtain ⟨some, rfl⟩ := (join_associative_iff first single).mp joined
      obtain ⟨negated, inverted, _, rfl⟩ := (inverted_of_isConnective connective swap).mp found
      obtain ⟨qs, each, same⟩ := (alike _).mpr ⟨negated, inverted, rfl⟩
      have length := (mapM_eq_ok_iff.mp each).length_eq
      refine ⟨qs, each, (join_associative_iff second (by omega)).mpr ⟨?_, by rw [same]⟩⟩
      rintro rfl
      exact some (List.length_eq_zero_iff.mp length)

end Joining

/-! Specifiers. -/

theorem ofConditions_negated_iff_inverted {op other : Operator} (connective : op.isConnective)
    (swap : op.counterpart = some other) {c : Conditions}
    (populated : c.toExpr.Throughout (·.isVacant = false)) (e : Predicate) :
    ofConditions c other true = .ok e ↔
      ∃ p, ofConditions c op false = .ok p ∧ p.inverted = .ok e := by
  have specifier : Conditions.ofSpecifier? c.toExpr = some c := rfl
  simp only [ofConditions_negated_eq_ok_iff, ofConditions_eq_ok_iff]
  have each (ps : List Predicate) (found : predicates c.pairs = .ok ps) :
      ∀ p ∈ ps, p.op.isPositive = true ∧ p.toExpr.Throughout (·.isVacant = false) := by
    intro p member
    exact ⟨(nesting_predicates_lt specifier found p member).2,
      vacancy_nodeProperty.closed.of_predicates populated specifier found p member⟩
  constructor
  · rintro ⟨ps, found, negated⟩
    obtain ⟨p, joined, inverted⟩ := (join_inverted_iff connective swap (each ps found)).mp negated
    exact ⟨p, ⟨ps, found, joined⟩, inverted⟩
  · rintro ⟨p, ⟨ps, found, joined⟩, inverted⟩
    exact ⟨ps, found, (join_inverted_iff connective swap (each ps found)).mpr ⟨p, joined, inverted⟩⟩

/-- Negating each condition before joining agrees with joining and then inverting, on the tree and on
what fails, unless there is a connective without operands in the conditions. -/
theorem ofConditions_negated_iff {c : Conditions}
    (populated : c.toExpr.Throughout (·.isVacant = false)) (e : Predicate) :
    (ofConditions c .or true = .ok e ↔
        ∃ p, ofConditions c .and false = .ok p ∧ p.inverted = .ok e) ∧
      (ofConditions c .and true = .ok e ↔
        ∃ p, ofConditions c .or false = .ok p ∧ p.inverted = .ok e) :=
  ⟨ofConditions_negated_iff_inverted (.inl rfl) rfl populated e,
    ofConditions_negated_iff_inverted (.inr rfl) rfl populated e⟩

def boundedConditions : Conditions :=
  ⟨.mapping, [(.identifier "a", .conditions .mapping [(.identifier "between",
      .list [.value (.integer 1), .value (.integer 9)])]),
    (.identifier "b", .value .null)]⟩

theorem ofConditions_negated_iff_bounded :
    ∃ p, ofConditions boundedConditions .and false = .ok p ∧
      p.inverted = .ok ⟨.or, [
        .complex .boolean .lt [.identifier "a", .value (.integer 1)],
        .complex .boolean .gt [.identifier "a", .value (.integer 9)],
        .complex .boolean .isNot [.identifier "b", .value .null]]⟩ := by
  have bounds : (Expr.list [.value (.integer 1), .value (.integer 9)]).Built :=
    .plain rfl (by simp [Expr.children, Expr.Built.value])
  have operators : (Expr.conditions .mapping [(.identifier "between",
      .list [.value (.integer 1), .value (.integer 9)])]).Built :=
    .plain rfl (by simp [Expr.children, Expr.sides, Expr.Built.identifier, bounds])
  have built : boundedConditions.toExpr.Built := by
    refine .plain rfl ?_
    simp [boundedConditions, Conditions.toExpr, Expr.children, Expr.sides, Expr.Built.identifier,
      Expr.Built.value, operators]
  exact (ofConditions_negated_iff built.populated _).1.mp rfl

def vacantConditions : Conditions :=
  ⟨.pairs, [(.complex .boolean .and [],
      .conditions .mapping [(.identifier "and", .complex .boolean .and [])]),
    (.identifier "b", .value (.integer 1))]⟩

theorem ofConditions_negated_vacant :
    ¬ ∀ c : Conditions, c.pairs ≠ [] → ∀ e, ofConditions c .or true = .ok e ↔
      ∃ p, ofConditions c .and false = .ok p ∧ p.inverted = .ok e := by
  intro agree
  have joined : ofConditions vacantConditions .and false =
      .ok ⟨.and, [.complex .boolean .eq [.identifier "b", .value (.integer 1)]]⟩ := rfl
  have refused : ofConditions vacantConditions .or true = .error (.operandCount .or 0) := rfl
  have negated := (agree vacantConditions (by simp [vacantConditions]) _).mpr ⟨_, joined, rfl⟩
  rw [refused] at negated
  cases negated

end Predicate

end SqlExpr
