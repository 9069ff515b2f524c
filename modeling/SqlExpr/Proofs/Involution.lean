import SqlExpr.Proofs.Frontier

/-!
Negating twice gives back the same tree. Operands of AND and OR stay apart in the negation as they do
in what is negated, and the NOOP that the negation of NOT leaves is taken off and put back as NOT.
-/

namespace SqlExpr

/-! Operators other than AND and OR change with their counterparts on the same operands. -/

theorem Predicate.inverted_swapped {op other : Operator} {args : List Expr}
    (swap : op.counterpart = some other) (few : ¬op.isConnective)
    (applicable : (Expr.complex .boolean op args).isApplicable) :
    inverted ⟨op, args⟩ = .ok ⟨other, args⟩ := by
  have swapped := applicable_nodeProperty.swapped .boolean op other args swap few applicable
  refine Expr.invertNode_eq_ok_iff.mpr ⟨other, swap, .inr ⟨few, ?_⟩⟩
  rw [apply_of_settled swapped.1 swapped.2,
    Operator.arrange_of_not_many (Operator.not_many_of_counterpart swap few)]

theorem Predicate.inverted_twice {op other : Operator} {args : List Expr}
    (swap : op.counterpart = some other) (few : ¬op.isConnective)
    (applicable : (Expr.complex .boolean op args).isApplicable) :
    ∃ q, inverted ⟨op, args⟩ = .ok q ∧ q.inverted = .ok ⟨op, args⟩ := by
  have back := Operator.counterpart_counterpart swap
  have few' : ¬other.isConnective := fun connective =>
    few (Operator.isConnective_of_counterpart back connective)
  have swapped := applicable_nodeProperty.swapped .boolean op other args swap few applicable
  exact ⟨_, inverted_swapped swap few applicable, inverted_swapped back few' swapped⟩

namespace Expr

/-- Boolean nodes that a double negation gives back, and the other operands that it gives back to AND
and OR: leaves that are wrapped in NOT, TRUE, FALSE, NULL and NOT NULL. -/
inductive Reversible : Expr → Prop
  | comparison {op other : Operator} {args : List Expr} : op.counterpart = some other →
      ¬op.isConnective → op ≠ .not → op ≠ .noop → Reversible (complex .boolean op args)
  | negation {leaf : Expr} : leaf.isTruthLeaf = true → Reversible (complex .boolean .not [leaf])
  | connection {op : Operator} {args : List Expr} : op.isConnective →
      (∀ arg ∈ args, Reversible arg) → Reversible (complex .boolean op args)
  | leaf {leaf : Expr} : leaf.isTruthLeaf = true → Reversible leaf
  | constant (truth : Option Bool) : Reversible (isConstant truth)
  | notNull : Reversible (isNotConstant none)

/-- As one operand of the connective, the expression is negated to one operand of the opposite
connective, and that one is negated to the expression again. -/
def Returns (op other : Operator) (e : Expr) : Prop :=
  ∃ negated operand again, e.invert = .ok negated ∧ spliced other true negated = [operand] ∧
    operand.invert = .ok again ∧ spliced op true again = [e]

def isApartApplicable (e : Expr) : Prop :=
  e.isApplicable ∧ e.isSettled ∧ e.keepsApart

end Expr

theorem apartApplicable_nodeProperty : NodeProperty Expr.isApartApplicable :=
  applicable_nodeProperty.and apart_nodeProperty

namespace Expr

theorem applicable_negation {e : Expr} (leaf : e.isTruthLeaf = true) :
    (complex .boolean .not [e]).isApplicable := by
  have plain := isSpecifier_of_isTruthLeaf leaf
  refine ⟨⟨rfl, ?_⟩, ?_⟩
  · simpa [Operator.read, Operator.isMembership] using plain
  · intro refuses
    cases refuses

theorem invert_negation {e : Expr} (leaf : e.isTruthLeaf = true) :
    (complex .boolean .not [e]).invert = .ok (complex .boolean .noop [e]) := by
  have inverted := Predicate.inverted_swapped rfl (by decide) (applicable_negation leaf)
  have whole := Predicate.invert_toExpr ⟨.not, [e]⟩
  rwa [inverted] at whole

theorem spliced_wrapped {leaf : Expr} (truth : leaf.isTruthLeaf = true) (op : Operator) :
    spliced op true (complex .boolean .noop [leaf]) = [leaf] := by
  have bare : withoutNoop (complex .boolean .noop [leaf]) = leaf := rfl
  rcases spliced_cases op true (complex .boolean .noop [leaf]) with single | ⟨_, _, node, _⟩
  · rw [single, bare]
  · rw [bare] at node
    rw [node] at truth
    cases truth

/-! Single operands. -/

section Operands

variable {op other : Operator} (connective : op.isConnective) (swap : op.counterpart = some other)

include connective

theorem spliced_negation (leaf : Expr) :
    spliced op true (complex .boolean .not [leaf]) = [complex .boolean .not [leaf]] := by
  apply spliced_self
  · simp [operator?]
  · rintro _ same
    cases same
    rcases connective with negation | negation <;> cases negation

include swap

theorem returns_leaf {leaf : Expr} (truth : leaf.isTruthLeaf = true) : leaf.Returns op other := by
  have opposite := Operator.isConnective_of_counterpart swap connective
  exact ⟨_, _, _, invert_of_isTruthLeaf truth, spliced_negation opposite leaf,
    invert_negation truth, spliced_wrapped truth op⟩

omit swap in
theorem returns_negation {leaf : Expr} (truth : leaf.isTruthLeaf = true) :
    (complex .boolean .not [leaf]).Returns op other :=
  ⟨_, _, _, invert_negation truth, spliced_wrapped truth other, invert_of_isTruthLeaf truth,
    spliced_negation connective leaf⟩

omit connective in
theorem returns_node {inner : Operator} {args : List Expr} {q : Predicate}
    (positive : inner.isPositive = true) (apart : inner ≠ op)
    (inverted : Predicate.inverted ⟨inner, args⟩ = .ok q) (again : q.inverted = .ok ⟨inner, args⟩) :
    (complex .boolean inner args).Returns op other := by
  have back := Operator.counterpart_counterpart swap
  have changed : inner.counterpart = some q.op := by
    rw [Predicate.inverted, invertNode_eq_full] at inverted
    exact SpecifierReading.op_of_invertNode inverted
  have apart' : q.op ≠ other := by
    intro same
    have returned := Operator.counterpart_counterpart changed
    rw [same, back, Option.some.injEq] at returned
    exact apart returned.symm
  have positive' := Operator.counterpart_isPositive changed
  rw [positive] at positive'
  have first := Predicate.invert_toExpr ⟨inner, args⟩
  have second := Predicate.invert_toExpr q
  rw [inverted] at first
  rw [again] at second
  refine ⟨q.toExpr, q.toExpr, complex .boolean inner args, first, ?_, second, ?_⟩
  · rw [Predicate.spliced_toExpr other positive', if_neg apart']
  · have single := Predicate.spliced_toExpr op (p := ⟨inner, args⟩) positive
    rwa [if_neg apart] at single

theorem Reversible.returns {e : Expr} (h : e.Reversible) (apart : e.operator? ≠ some op)
    (node : ∀ p : Predicate, e = p.toExpr → ∃ q, p.inverted = .ok q ∧ q.inverted = .ok p) :
    e.Returns op other := by
  cases h with
  | @comparison inner _ args _ few noNot noNoop =>
    obtain ⟨q, inverted, again⟩ := node ⟨inner, args⟩ rfl
    have positive : inner.isPositive = true := by
      cases inner <;> first | rfl | contradiction
    refine returns_node swap positive ?_ inverted again
    rintro rfl
    exact few connective
  | negation truth => exact returns_negation connective truth
  | @connection inner args innerConnective _ =>
    obtain ⟨q, inverted, again⟩ := node ⟨inner, args⟩ rfl
    have positive : inner.isPositive = true := by
      rcases innerConnective with rfl | rfl <;> rfl
    refine returns_node swap positive ?_ inverted again
    rintro rfl
    exact apart rfl
  | leaf truth => exact returns_leaf connective swap truth
  | constant truth =>
    cases truth with
    | none => exact ⟨_, _, _, rfl, rfl, rfl, rfl⟩
    | some truth => cases truth <;> exact ⟨_, _, _, rfl, rfl, rfl, rfl⟩
  | notNull => exact ⟨_, _, _, rfl, rfl, rfl, rfl⟩

omit connective swap in
theorem returns_all {args : List Expr} (each : ∀ arg ∈ args, arg.Returns op other) :
    ∃ negated again, args.mapM invert = .ok negated ∧
      (negated.flatMap (spliced other true)).mapM invert = .ok again ∧
      again.flatMap (spliced op true) = args := by
  induction args with
  | nil => exact ⟨[], [], rfl, rfl, rfl⟩
  | cons arg rest ih =>
    rw [List.forall_mem_cons] at each
    obtain ⟨⟨negated, operand, again, first, single, second, same⟩, each⟩ := each
    obtain ⟨others, others', firsts, seconds, sames⟩ := ih each
    refine ⟨negated :: others, again :: others', ?_, ?_, ?_⟩
    · rw [List.mapM_cons, first, firsts]
      rfl
    · rw [List.flatMap_cons, single, List.singleton_append, List.mapM_cons, second, seconds]
      rfl
    · rw [List.flatMap_cons, same, sames]
      rfl

end Operands

end Expr

/-! Whole nodes. -/

namespace Predicate

theorem inverted_twice_connection {op : Operator} {args : List Expr} (connective : op.isConnective)
    (some : args ≠ [])
    (each : ∀ other, op.counterpart = .some other → ∀ arg ∈ args, arg.Returns op other) :
    ∃ q, inverted ⟨op, args⟩ = .ok q ∧ q.inverted = .ok ⟨op, args⟩ := by
  obtain ⟨other, swap⟩ := Operator.exists_counterpart connective
  have opposite := Operator.isConnective_of_counterpart swap connective
  have back := Operator.counterpart_counterpart swap
  obtain ⟨negated, again, first, second, same⟩ := Expr.returns_all (each other swap)
  have filled : again ≠ [] := by
    rintro rfl
    exact some same.symm
  refine ⟨_, (inverted_of_isConnective connective swap).mpr ⟨negated, first, ?_, rfl⟩, ?_⟩
  · exact ne_nil_of_mapM first some
  · exact (inverted_of_isConnective opposite back).mpr ⟨again, second, filled, by rw [same]⟩

theorem inverted_twice_of_reversible {e : Expr} (h : e.Reversible)
    (apart : e.Throughout Expr.isApartApplicable) :
    ∀ p : Predicate, e = p.toExpr → ∃ q, p.inverted = .ok q ∧ q.inverted = .ok p := by
  induction h with
  | comparison swap few _ _ =>
    rintro ⟨op, args⟩ ⟨⟩
    exact inverted_twice swap few apart.here.1
  | negation truth =>
    rintro ⟨op, args⟩ ⟨⟩
    exact inverted_twice rfl (by decide) apart.here.1
  | @connection op args connective reversible ih =>
    rintro ⟨_, _⟩ ⟨⟩
    obtain ⟨_, settled, kept⟩ := apart.here
    have many := Operator.many_of_isConnective connective
    refine inverted_twice_connection connective (settled.operands many).1 ?_
    intro other swap arg member
    refine (reversible arg member).returns connective swap ?_ (ih arg member (apart.child member))
    exact kept.2 (Operator.isAssociative_of_isConnective connective) arg member
  | leaf truth =>
    rintro p rfl
    cases truth
  | constant | notNull =>
    intro p same
    cases same

/-- The negation of a reversible node can be negated again, and that gives the node itself. -/
theorem inverted_inverted_eq_self {p : Predicate} (built : p.toExpr.Built)
    (reversible : p.toExpr.Reversible) : ∃ q, p.inverted = .ok q ∧ q.inverted = .ok p :=
  inverted_twice_of_reversible reversible (apartApplicable_nodeProperty.throughout_built built) p rfl

/-- NOT, a disjunction and NOT NULL side by side. -/
def mixedConjunction : Predicate :=
  ⟨.and, [.complex .boolean .not [.identifier "a"],
    .complex .boolean .or [columnIsOne, .identifier "b"], .isNotConstant none]⟩

theorem built_mixedConjunction : mixedConjunction.toExpr.Built := by
  have negated : apply .not [.identifier "a"] = .ok ⟨.not, [.identifier "a"]⟩ := rfl
  have disjoined : apply .or [columnIsOne, .identifier "b"] =
      .ok ⟨.or, [columnIsOne, .identifier "b"]⟩ := rfl
  have joined : apply .and mixedConjunction.args = .ok mixedConjunction := rfl
  have first := Expr.Built.toExpr (by simp [Expr.Built.identifier]) negated
  have second := Expr.Built.toExpr (by simp [Expr.Built.identifier, built_columnIsOne]) disjoined
  have third : (Expr.isNotConstant none).Built := .plain rfl (by simp [Expr.children])
  refine Expr.Built.toExpr ?_ joined
  simpa [mixedConjunction] using ⟨first, second, third⟩

theorem inverted_inverted_eq_self_mixedConjunction :
    ∃ q, mixedConjunction.inverted = .ok q ∧ q.inverted = .ok mixedConjunction := by
  have comparison : columnIsOne.Reversible := .comparison rfl (by decide) (by decide) (by decide)
  have column (name : String) : (Expr.identifier name).Reversible := .leaf rfl
  have disjunction : (Expr.complex .boolean .or [columnIsOne, .identifier "b"]).Reversible :=
    .connection (.inr rfl) (by simp [comparison, column])
  have negation : (Expr.complex .boolean .not [.identifier "a"]).Reversible := .negation rfl
  refine inverted_inverted_eq_self built_mixedConjunction (.connection (.inl rfl) ?_)
  simpa [mixedConjunction] using ⟨negation, disjunction, .notNull⟩

end Predicate

end SqlExpr
