import SqlExpr.Proofs.DoubleNegation
import SqlExpr.Proofs.NormalForm

/-!
Where a negation fails. It goes through AND and OR to the nodes at which they end, and fails at the
first of these that has no negation. Putting the negated operands together again does not fail.
-/

namespace SqlExpr

instance : DecidablePred Operator.isConnective :=
  fun op => inferInstanceAs (Decidable (op = .and ∨ op = .or))

def Error.isNotInvertible : Error → Bool
  | notInvertible _ | noCounterpart .. => true
  | _ => false

namespace Expr

mutual

/-- The nodes at which AND and OR end, from left to right. -/
def frontier : Expr → List Expr
  | complex family op args =>
    if op.isConnective ∧ family.wantsScalars = false then frontierAll args
    else [complex family op args]
  | e => [e]

def frontierAll : List Expr → List Expr
  | [] => []
  | e :: rest => frontier e ++ frontierAll rest

end

/-- Nodes without negation: numbers and strings, operators without counterpart, lists, and what is no
operand but a part of a clause. -/
def lacksNegation : Expr → Bool
  | complex family op _ => family.wantsScalars || op.counterpart.isNone
  | list _ | pattern _ | columnAll _ | aliased .. | ordered .. | constant _ | join .. => true
  | _ => false

def refusal : Expr → Error
  | complex family op args =>
    if family.wantsScalars then .notInvertible (complex family op args)
    else .noCounterpart family op args
  | e => .notInvertible e

/-- Boolean nodes, and TRUE, FALSE and NULL with their opposites. -/
def isTruth : Expr → Bool
  | complex .boolean .. | isConstant _ | isNotConstant _ => true
  | _ => false

theorem frontierAll_eq_flatMap (items : List Expr) : frontierAll items = items.flatMap frontier := by
  induction items with
  | nil => rw [frontierAll, List.flatMap_nil]
  | cons e rest ih => rw [frontierAll, ih, List.flatMap_cons]

theorem frontier_connective {family : Family} {op : Operator} (connective : op.isConnective)
    (truth : family.wantsScalars = false) (args : List Expr) :
    (complex family op args).frontier = args.flatMap frontier := by
  rw [frontier, if_pos ⟨connective, truth⟩, frontierAll_eq_flatMap]

theorem frontier_node {family : Family} {op : Operator}
    (ends : op.isConnective → family.wantsScalars = true) (args : List Expr) :
    (complex family op args).frontier = [complex family op args] := by
  rw [frontier, if_neg]
  rintro ⟨connective, truth⟩
  rw [ends connective] at truth
  cases truth

theorem isNotInvertible_refusal (e : Expr) : e.refusal.isNotInvertible = true := by
  unfold refusal
  split
  · split <;> rfl
  · rfl

def isApplicable (e : Expr) : Prop :=
  e.isSettled ∧ e.passesCheck

end Expr

theorem applicable_nodeProperty : NodeProperty Expr.isApplicable :=
  settled_nodeProperty.and passesCheck_nodeProperty

namespace Expr

theorem invert_of_isTruthLeaf {e : Expr} (leaf : e.isTruthLeaf = true) :
    e.invert = .ok (complex .boolean .not [e]) := by
  have wrapped : SpecifierReading.full.predicate .not [e] = .ok ⟨.not, [e]⟩ := by
    refine Predicate.assemble_eq_ok_iff.mpr ⟨rfl, [e], ?_, rfl⟩
    apply settle_of_plain
    simpa [Operator.read, Operator.isMembership] using isSpecifier_of_isTruthLeaf leaf
  rw [invert_eq_full]
  cases e <;> simp only [isTruthLeaf, Bool.false_eq_true] at leaf
  all_goals
    rw [SpecifierReading.invert, wrapped]
    · rfl
    all_goals simp

theorem failure?_invert_leaf {e : Expr} (noOperator : e.family = none)
    (plain : e.isSpecifier = false) :
    failure? e.invert = if e.lacksNegation then some e.refusal else none := by
  by_cases leaf : e.isTruthLeaf = true
  · have possible : e.lacksNegation = false := by
      cases e <;> first | rfl | cases leaf
    rw [invert_of_isTruthLeaf leaf, possible]
    rfl
  · rw [invert_eq_full]
    cases e <;> simp only [isTruthLeaf, not_true_eq_false] at leaf
    case list items =>
      have single : ¬arePairs items = true := by simpa [isSpecifier] using plain
      rw [SpecifierReading.invert, if_neg single]
      rfl
    case conditions => cases plain
    case complex => cases noOperator
    case isConstant truth => cases truth <;> rw [SpecifierReading.invert] <;> rfl
    all_goals
      rw [SpecifierReading.invert]
      rfl

theorem exists_apply_negated {family : Family} {op other : Operator} {args negated : List Expr}
    (swap : op.counterpart = some other) (connective : op.isConnective)
    (settled : (complex family op args).isSettled) (inverted : args.mapM invert = .ok negated) :
    ∃ p, Predicate.apply other negated = .ok p := by
  have opposite := Operator.isConnective_of_counterpart swap connective
  have plain : ∀ e ∈ negated, e.isSpecifier = false :=
    forall_of_mapM inverted fun _ _ _ => isSpecifier_of_invert
  have some : negated ≠ [] := by
    apply ne_nil_of_mapM inverted
    exact (settled.operands (Operator.many_of_isConnective connective)).1
  exact ⟨_, (Predicate.apply_associative_iff (Operator.isAssociative_of_isConnective opposite)
    plain).mpr ⟨some, rfl⟩⟩

/-! Operands that can be negated can be put together again, so that a node fails as its operands do. -/

theorem failure?_invertNode_connective {family : Family} {op : Operator} {args : List Expr}
    {fails : Expr → Option Error} (connective : op.isConnective)
    (settled : (complex family op args).isSettled)
    (each : ∀ arg ∈ args, failure? arg.invert = fails arg) :
    failure? (invertNode family op args) = args.findSome? fails := by
  obtain ⟨other, swap⟩ := Operator.exists_counterpart connective
  have node : invertNode family op args = args.mapM invert >>= Predicate.apply other := by
    rw [invertNode_eq_full, SpecifierReading.invertNode_eq, ← funext invert_eq_full, swap]
    exact if_pos connective
  rw [node, failure?_bind, failure?_mapM each]
  intro negated inverted
  exact exists_apply_negated swap connective settled inverted

theorem failure?_invertNode_other {family : Family} {op : Operator} {args : List Expr}
    (few : ¬op.isConnective) (applicable : (complex family op args).isApplicable) :
    failure? (invertNode family op args) =
      if op.counterpart.isNone then some (.noCounterpart family op args) else none := by
  rw [invertNode_eq_full, SpecifierReading.invertNode_eq]
  cases swap : op.counterpart with
  | none => rfl
  | some other =>
    have swapped := applicable_nodeProperty.swapped family op other args swap few applicable
    have node : SpecifierReading.full.predicate other args = .ok ⟨other, other.arrange args⟩ :=
      Predicate.apply_of_settled swapped.1 swapped.2
    have notConnective : ¬(op = .and ∨ op = .or) := few
    simp only [notConnective, if_false, node]
    rfl

theorem failure?_invert_of_applicable {e : Expr} (applicable : e.Throughout isApplicable)
    (plain : e.isSpecifier = false) :
    failure? e.invert = (e.frontier.find? lacksNegation).map refusal := by
  have single (e : Expr) : ([e].find? lacksNegation).map refusal =
      if e.lacksNegation then some e.refusal else none := by
    rw [List.find?_singleton]
    split <;> rfl
  induction e using childrenInduction with
  | step e ih =>
    cases e
    case complex family op args =>
      have here := applicable.here
      rw [invert_complex]
      by_cases scalars : family.wantsScalars = true
      · rw [if_pos scalars, frontier_node fun _ => scalars, single]
        simp [lacksNegation, refusal, scalars, failure?]
      · rw [if_neg scalars, failure?_map]
        rw [Bool.not_eq_true] at scalars
        by_cases connective : op.isConnective
        · rw [frontier_connective connective scalars, List.find?_flatMap, List.map_findSome?]
          apply failure?_invertNode_connective connective here.1
          intro arg member
          have operands := here.1.operands (Operator.many_of_isConnective connective)
          exact ih arg member (applicable.child member) (operands.2 arg member)
        · rw [failure?_invertNode_other connective here,
            frontier_node fun same => absurd same connective, single]
          simp [lacksNegation, refusal, scalars]
    all_goals
      rw [failure?_invert_leaf rfl plain, frontier, single]
      all_goals simp

/-- The negation of what is built fails exactly if a node at which AND and OR end has none; the failure
names the first of these and says that there is no negation, and what does not fail is a truth value. -/
theorem Built.failure?_invert {e : Expr} (built : e.Built) (plain : e.isSpecifier = false) :
    ((∃ failure, e.invert = .error failure) ↔ ∃ node ∈ e.frontier, node.lacksNegation = true) ∧
      (∀ failure, e.invert = .error failure → failure.isNotInvertible = true ∧
        ∃ node, e.frontier.find? lacksNegation = some node ∧ failure = node.refusal) ∧
      ∀ r, e.invert = .ok r → r.isTruth = true := by
  have whole := failure?_invert_of_applicable (applicable_nodeProperty.throughout_built built) plain
  refine ⟨?_, ?_, ?_⟩
  · rw [← isSome_failure?_iff, whole, Option.isSome_map, List.find?_isSome]
  · intro failure failed
    rw [← failure?_eq_some_iff, whole, Option.map_eq_some_iff] at failed
    obtain ⟨node, found, rfl⟩ := failed
    exact ⟨node.isNotInvertible_refusal, node, found, rfl⟩
  · intro r found
    cases negates_of_invert found with
    | node | leaf | truth | null | opposite => rfl
    | specifier specifier _ =>
      rw [isSpecifier_of_ofSpecifier? specifier] at plain
      cases plain

def comparisonOrSum : Expr :=
  complex .boolean .or [Predicate.columnIsOne, Predicate.columnPlusOne]

theorem built_comparisonOrSum : comparisonOrSum.Built := by
  have applied : Expr.apply .boolean .or [Predicate.columnIsOne, Predicate.columnPlusOne] =
      .ok comparisonOrSum := rfl
  exact .operator (by simp [Predicate.built_columnIsOne, Predicate.built_columnPlusOne]) applied

theorem Built.failure?_invert_sum :
    (complex .boolean .and [.identifier "a", comparisonOrSum]).invert =
      .error (.notInvertible Predicate.columnPlusOne) := by
  have applied : Expr.apply .boolean .and [.identifier "a", comparisonOrSum] =
      .ok (complex .boolean .and [.identifier "a", comparisonOrSum]) := rfl
  have built := Built.operator (by simp [Built.identifier, built_comparisonOrSum]) applied
  obtain ⟨fails, failing, _⟩ := Built.failure?_invert built rfl
  have ends : (complex .boolean .and [.identifier "a", comparisonOrSum]).frontier =
      [.identifier "a", Predicate.columnIsOne, Predicate.columnPlusOne] := rfl
  obtain ⟨failure, failed⟩ := fails.mpr ⟨Predicate.columnPlusOne, by simp [ends], rfl⟩
  obtain ⟨_, node, found, rfl⟩ := failing failure failed
  cases found
  exact failed

end Expr

end SqlExpr
