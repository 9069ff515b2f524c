import SqlExpr.Proofs.Negation

/-!
Nodes of operators with many operands are in normal form: no operand could be taken in any further.
One wrapper is taken off an operand, so that NOOP stays where it stood in NOOP.
-/

namespace SqlExpr

namespace Expr

/-- An operator that may be regrouped has no operand of its own, and no operator with many operands
has such a first operand. -/
def keepsApart : Expr → Prop
  | complex _ op args =>
    (op.arity = .many → ∀ first ∈ args.head?, first.operator? ≠ some op) ∧
      (op.isAssociative = true → ∀ arg ∈ args, arg.operator? ≠ some op)
  | _ => True

/-- No operand of an operator with many operands is a node of NOOP. -/
def isUnwrapped : Expr → Prop
  | complex _ op args => op.arity = .many → ∀ arg ∈ args, arg.operator? ≠ some .noop
  | _ => True

/-- The same, also for operands of NOT and NOOP. -/
def isBare : Expr → Prop
  | complex _ op args =>
    op.arity = .many ∨ op.isPositive = false → ∀ arg ∈ args, arg.operator? ≠ some .noop
  | _ => True

/-- The operands pass the check of a boolean node. -/
def passesCheck : Expr → Prop
  | complex _ op args =>
    refusesTruth .boolean op = true → ∀ arg ∈ args, arg.isBooleanTyped = false
  | _ => True

theorem operator?_complex {e : Expr} {op : Operator} (h : e.operator? = some op) :
    ∃ family args, e = complex family op args := by
  cases e <;> cases h
  exact ⟨_, _, rfl⟩

theorem isBare.isUnwrapped {e : Expr} (h : e.isBare) : Expr.isUnwrapped e := by
  cases e
  case complex family op args => exact fun many => h (.inl many)
  all_goals trivial

theorem withoutNoop_eq_of_ne {e : Expr} (bare : e.operator? ≠ some .noop) : withoutNoop e = e := by
  rcases withoutNoop_cases e with same | ⟨family, wrapped⟩
  · exact same
  · rw [wrapped] at bare
    exact absurd rfl bare

theorem isPositive_of_resolve {e resolved : Expr} {op : Operator} (specifier : e.isSpecifier = true)
    (found : e.resolve = .ok resolved) (operator : resolved.operator? = some op) :
    op.isPositive = true := by
  obtain ⟨c, pairs⟩ := exists_ofSpecifier? specifier
  simp only [resolve_of_ofSpecifier? pairs, bind_eq_ok_iff, pure_eq_ok_iff] at found
  obtain ⟨ps, each, p, joined, rfl⟩ := found
  have sides (side : Expr) (member : side ∈ sides c.pairs) : side.nesting ≤ e.nesting :=
    Nat.le_of_lt (nesting_sides_lt pairs side member)
  have positive := (nesting_synthesisInvariant e.nesting).join
    (nesting_le_of_predicates sides each) joined
  cases operator
  exact positive.2

theorem operator?_of_resolve {e resolved : Expr} (found : e.resolve = .ok resolved)
    (bare : e.operator? ≠ some .noop) : resolved.operator? ≠ some .noop := by
  cases specifier : e.isSpecifier with
  | false =>
    rw [resolve_of_isSpecifier_eq_false specifier] at found
    cases found
    exact bare
  | true =>
    intro wrapper
    have positive := isPositive_of_resolve specifier found wrapper
    cases positive

end Expr

/-! What an operand contributes has another operator than the node that takes it in. -/

theorem spliced_apart {op : Operator} {leading : Bool} (e : Expr)
    (taken : op.isAssociative = true ∨ leading = true) :
    (spliced op leading e = [withoutNoop e] ∧ (withoutNoop e).operator? ≠ some op) ∨
      ∃ family args, withoutNoop e = .complex family op args ∧ spliced op leading e = args := by
  by_cases same : (withoutNoop e).operator? = some op
  · obtain ⟨family, args, node⟩ := Expr.operator?_complex same
    refine .inr ⟨family, args, node, ?_⟩
    simp only [spliced, node]
    exact if_pos ⟨trivial, taken⟩
  · refine .inl ⟨?_, same⟩
    rcases spliced_cases op leading e with single | ⟨family, args, node, _⟩
    · exact single
    · rw [node] at same
      exact absurd rfl same

theorem spliced_self {op : Operator} {leading : Bool} {e : Expr}
    (bare : e.operator? ≠ some .noop)
    (apart : op.isAssociative = true ∨ leading = true → e.operator? ≠ some op) :
    spliced op leading e = [e] := by
  have same := Expr.withoutNoop_eq_of_ne bare
  by_cases taken : op.isAssociative = true ∨ leading = true
  · rcases spliced_apart e taken with ⟨single, _⟩ | ⟨family, args, node, _⟩
    · rw [single, same]
    · rw [same] at node
      rw [node] at apart
      exact absurd rfl (apart taken)
  · simp only [not_or, Bool.not_eq_true] at taken
    obtain ⟨grouped, rfl⟩ := taken
    rw [spliced_of_not_isAssociative grouped, same]

theorem flatten_apart {op : Operator} (associative : op.isAssociative = true)
    {operands : List Expr} (every : ∀ operand ∈ operands, operand.Throughout Expr.keepsApart) :
    ∀ arg ∈ flatten op operands, arg.operator? ≠ some op := by
  apply forall_mem_flatten_of_spliced
  intro leading operand member arg contributed
  rcases spliced_apart operand (.inl associative) with ⟨single, other⟩ | ⟨family, args, node, taken⟩
  · rw [single, List.mem_singleton] at contributed
    rw [contributed]
    exact other
  · have inner := (every operand member).withoutNoop.here
    rw [node] at inner
    rw [taken] at contributed
    exact inner.2 associative arg contributed

theorem head_flatten_apart {op : Operator} (many : op.arity = .many) {operands : List Expr}
    (every : ∀ operand ∈ operands, operand.Throughout fun e => e.isSettled ∧ e.keepsApart) :
    ∀ arg ∈ (flatten op operands).head?, arg.operator? ≠ some op := by
  cases operands with
  | nil => simp [flatten]
  | cons first others =>
    have whole := every first (by simp)
    have filled := (whole.mono fun _ held => held.1).spliced_ne_nil many true
    rw [flatten, List.head?_append_of_ne_nil _ filled]
    rcases spliced_apart first (.inr rfl) with ⟨single, other⟩ | ⟨family, args, node, taken⟩
    · rw [single]
      rintro arg ⟨⟩
      exact other
    · have inner := whole.withoutNoop.here.2
      rw [node] at inner
      rw [taken]
      exact inner.1 many

theorem apart_nodeProperty : NodeProperty fun e => e.isSettled ∧ e.keepsApart where
  plain e noOperator := by
    refine ⟨settled_nodeProperty.plain e noOperator, ?_⟩
    cases e <;> trivial
  made family op settled checked every plain := by
    have counted : ∀ arg ∈ settled, arg.Throughout Expr.isSettled := by
      intro arg member
      exact (every arg member).mono fun _ held => held.1
    refine ⟨settled_nodeProperty.made family op settled checked counted plain, ?_, ?_⟩
    · intro many
      rw [Operator.arrange_of_many many]
      exact head_flatten_apart many every
    · intro associative
      rw [Operator.arrange_of_many (Operator.many_of_isAssociative associative)]
      refine flatten_apart associative ?_
      intro arg member
      exact (every arg member).mono fun _ held => held.2
  swapped family op other args swap few held := by
    have notMany := Operator.not_many_of_counterpart swap few
    refine ⟨settled_nodeProperty.swapped family op other args swap few held.1, ?_, ?_⟩
    · intro many
      exact absurd many notMany
    · intro associative
      exact absurd (Operator.many_of_isAssociative associative) notMany

/-! A boolean node is made of its own operands again. -/

theorem Operator.not_many_of_refusesTruth {op : Operator} (refuses : refusesTruth .boolean op = true) :
    op.arity ≠ .many := by
  intro many
  rw [refusesTruth_of_many many] at refuses
  cases refuses

theorem refusesTruth_of_boolean {family : Family} {op : Operator}
    (refuses : refusesTruth .boolean op = true) : refusesTruth family op = true := by
  cases family <;> simp_all [refusesTruth, Family.wantsScalars]

theorem passesCheck_nodeProperty : NodeProperty Expr.passesCheck where
  plain e noOperator := by
    cases e <;> trivial
  made family op settled checked every plain := by
    intro refuses
    rw [Operator.arrange_of_not_many (Operator.not_many_of_refusesTruth refuses)]
    exact (checkOperands_eq_ok_iff.mp checked).1 (refusesTruth_of_boolean refuses)
  swapped family op other args swap few held := by
    intro refuses
    rw [Operator.refusesTruth_counterpart swap] at refuses
    exact held refuses

theorem Predicate.apply_of_settled {family : Family} {op : Operator} {args : List Expr}
    (settled : (Expr.complex family op args).isSettled)
    (passes : (Expr.complex family op args).passesCheck) :
    Predicate.apply op args = .ok ⟨op, op.arrange args⟩ := by
  obtain ⟨accepted, plain⟩ := settled
  exact Predicate.apply_eq_ok_iff.mpr ⟨checkOperands_eq_ok_iff.mpr ⟨passes, accepted⟩, args,
    settle_of_plain plain, rfl⟩

/-! Taking in operands makes them smaller, by each NOOP that is taken off. -/

noncomputable def weight : List Expr → Nat
  | [] => 0
  | e :: rest => sizeOf e + weight rest

theorem weight_append (items rest : List Expr) :
    weight (items ++ rest) = weight items + weight rest := by
  induction items with
  | nil => simp [weight]
  | cons e items ih =>
    rw [List.cons_append, weight, weight, ih]
    omega

theorem weight_le_sizeOf (items : List Expr) : weight items ≤ sizeOf items := by
  induction items with
  | nil => simp [weight]
  | cons e rest ih =>
    rw [weight, List.cons.sizeOf_spec]
    omega

theorem weight_spliced_le (op : Operator) (leading : Bool) (e : Expr) :
    weight (spliced op leading e) ≤ sizeOf (withoutNoop e) := by
  rcases spliced_cases op leading e with single | ⟨family, args, node, taken⟩
  · simp [single, weight]
  · have smaller := weight_le_sizeOf args
    rw [taken, node, Expr.complex.sizeOf_spec]
    omega

def wrappers (items : List Expr) : Nat :=
  items.countP (·.operator? = some .noop)

theorem wrappers_cons (e : Expr) (rest : List Expr) :
    wrappers (e :: rest) = wrappers [e] + wrappers rest := by
  simp only [wrappers, List.countP_cons, List.countP_nil]
  omega

theorem Expr.isSettled.exists_wrapped {e : Expr} (settled : e.isSettled)
    (wrapper : e.operator? = some .noop) : ∃ family inner, e = .complex family .noop [inner] := by
  obtain ⟨family, args, rfl⟩ := operator?_complex wrapper
  have single : args.length = 1 := by simpa [Operator.arity, Arity.accepts] using settled.1
  obtain ⟨inner, rfl⟩ := List.length_eq_one_iff.mp single
  exact ⟨family, inner, rfl⟩

theorem weight_spliced (op : Operator) (leading : Bool) {e : Expr} (settled : e.isSettled) :
    weight (spliced op leading e) + wrappers [e] ≤ sizeOf e := by
  have contributed := weight_spliced_le op leading e
  by_cases wrapper : e.operator? = some .noop
  · obtain ⟨family, inner, rfl⟩ := settled.exists_wrapped wrapper
    have smaller : sizeOf inner < sizeOf (Expr.complex family .noop [inner]) :=
      Expr.sizeOf_lt_of_mem_children (by simp [Expr.children])
    have one : wrappers [Expr.complex family .noop [inner]] = 1 := rfl
    change _ ≤ sizeOf inner at contributed
    omega
  · have none : wrappers [e] = 0 := by simp [wrappers, wrapper]
    rw [Expr.withoutNoop_eq_of_ne wrapper] at contributed
    omega

theorem weight_flatMap_spliced (op : Operator) (leading : Bool) {operands : List Expr}
    (settled : ∀ operand ∈ operands, operand.isSettled) :
    weight (operands.flatMap (spliced op leading)) + wrappers operands ≤ weight operands := by
  induction operands with
  | nil => exact Nat.le_refl _
  | cons e rest ih =>
    rw [List.forall_mem_cons] at settled
    have first := weight_spliced op leading settled.1
    have others := ih settled.2
    rw [List.flatMap_cons, weight_append, weight, wrappers_cons]
    omega

theorem weight_flatten (op : Operator) {operands : List Expr}
    (settled : ∀ operand ∈ operands, operand.isSettled) :
    weight (flatten op operands) + wrappers operands ≤ weight operands := by
  cases operands with
  | nil => exact Nat.le_refl _
  | cons e rest =>
    rw [List.forall_mem_cons] at settled
    have first := weight_spliced op true settled.1
    have others := weight_flatMap_spliced op false settled.2
    rw [flatten, weight_append, weight, wrappers_cons]
    omega

theorem flatten_eq_self {family : Family} {op : Operator} {args : List Expr} (many : op.arity = .many)
    (apart : (Expr.complex family op args).keepsApart)
    (bare : ∀ arg ∈ args, arg.operator? ≠ some .noop) : flatten op args = args := by
  cases args with
  | nil => rfl
  | cons first others =>
    have alone : spliced op true first = [first] := by
      apply spliced_self (bare first (by simp))
      intro _
      exact apart.1 many first rfl
    have each : ∀ other ∈ others, spliced op false other = [other] := by
      intro other member
      apply spliced_self (bare other (by simp [member]))
      rintro (associative | leading)
      · exact apart.2 associative other (by simp [member])
      · cases leading
    rw [flatten, alone, List.flatMap_congr each]
    simp

theorem arrange_eq_self_iff {family : Family} {op : Operator} {args : List Expr}
    (apart : (Expr.complex family op args).keepsApart) (settled : ∀ arg ∈ args, arg.isSettled) :
    op.arrange args = args ↔ (Expr.complex family op args).isUnwrapped := by
  by_cases many : op.arity = .many
  · rw [Operator.arrange_of_many many]
    constructor
    · intro same _ arg member wrapper
      have bound := weight_flatten op settled
      have some : 0 < wrappers args := by
        rw [wrappers, List.countP_pos_iff]
        exact ⟨arg, member, by simpa using wrapper⟩
      rw [same] at bound
      omega
    · intro bare
      exact flatten_eq_self many apart (bare many)
  · rw [Operator.arrange_of_not_many many]
    exact iff_of_true rfl fun isMany => absurd isMany many

/-! NOOP stays where it is only if it is put around NOOP, or NOT is. -/

theorem Operator.read_of_negative {op : Operator} (negative : op.isPositive = false)
    (args : List Expr) : op.read args = args := by
  apply read_of_not_membership
  cases op <;> first | rfl | cases negative

theorem operator?_withoutNoop {e : Expr} (settled : e.isSettled) (bare : e.isBare) :
    (withoutNoop e).operator? ≠ some .noop := by
  by_cases wrapper : e.operator? = some .noop
  · obtain ⟨family, inner, rfl⟩ := settled.exists_wrapped wrapper
    exact bare (.inr rfl) inner (by simp)
  · rw [Expr.withoutNoop_eq_of_ne wrapper]
    exact wrapper

theorem flatten_bare {op : Operator} (many : op.arity = .many) {operands : List Expr}
    (every : ∀ operand ∈ operands, operand.Throughout fun e => e.isSettled ∧ e.isBare) :
    ∀ arg ∈ flatten op operands, arg.operator? ≠ some .noop := by
  apply forall_mem_flatten_of_spliced
  intro leading operand member arg contributed
  have held := every operand member
  rcases spliced_cases op leading operand with single | ⟨family, args, node, taken⟩
  · rw [single, List.mem_singleton] at contributed
    rw [contributed]
    exact operator?_withoutNoop held.here.1 held.here.2
  · have inner := held.withoutNoop.here.2
    rw [node] at inner
    rw [taken] at contributed
    exact inner (.inl many) arg contributed

theorem bare_settled {family : Family} {op : Operator} {args settled : List Expr}
    (checked : checkOperands family op args = .ok ()) (fits : op.fits args)
    (read : ∀ arg ∈ op.read args, ∀ resolved, arg.resolve = .ok resolved →
      resolved.Throughout fun e => e.isSettled ∧ e.isBare)
    (kept : ∀ arg ∈ op.kept args, arg.Throughout fun e => e.isSettled ∧ e.isBare)
    (found : settle op (args.map .of) = .ok settled) :
    (Expr.complex family op (op.arrange settled)).Throughout fun e => e.isSettled ∧ e.isBare := by
  have every := forall_mem_of_settle found read kept
  have counted : ∀ arg ∈ settled, arg.Throughout Expr.isSettled := by
    intro arg member
    exact (every arg member).mono fun _ held => held.1
  have plain : ∀ arg ∈ op.read settled, arg.isSpecifier = false :=
    forall_mem_read_of_settle found fun arg _ resolved found => Expr.isSpecifier_of_resolve found
  refine .intro ⟨settled_nodeProperty.made family op settled (checkOperands_settled checked found)
    counted plain, ?_⟩ (Expr.Throughout.arrange every)
  intro wrapping
  by_cases many : op.arity = .many
  · rw [Operator.arrange_of_many many]
    exact flatten_bare many every
  · have negative := wrapping.resolve_left many
    have bare : ∀ arg ∈ op.read settled, arg.operator? ≠ some .noop := by
      refine forall_mem_read_of_settle found ?_
      intro arg member resolved found
      exact Expr.operator?_of_resolve found
        (fits negative arg (Operator.mem_of_mem_read member))
    rw [Operator.read_of_negative negative] at bare
    rw [Operator.arrange_of_not_many many]
    exact bare

theorem bare_closed : Closed (Expr.Throughout fun e => e.isSettled ∧ e.isBare) where
  plain e noOperator parts := by
    refine .intro ⟨settled_nodeProperty.plain e noOperator, ?_⟩ parts
    cases e <;> trivial
  part e held child member := held.child member
  applied op args p fits read kept found := by
    obtain ⟨checked, settled, settles, rfl⟩ := Predicate.apply_eq_ok_iff.mp found
    refine bare_settled checked fits ?_ kept settles
    intro arg member
    exact (read arg member).2
  swapped family op other args p swap few held found := by
    have notMany := Operator.not_many_of_counterpart swap few
    rw [SpecifierReading.eq_of_absent_predicate notMany found]
    have swapped := settled_nodeProperty.swapped family op other args swap few held.here.1
    refine .intro ⟨swapped, ?_⟩ fun child member => held.child member
    rintro (many | negative)
    · exact absurd many notMany
    · rw [Operator.counterpart_isPositive swap] at negative
      exact held.here.2 (.inr negative)

namespace Expr

/-- As `Built`, but NOT and NOOP are never put around NOOP. -/
inductive BuiltBare : Expr → Prop
  | plain {e : Expr} : e.family = none → (∀ child ∈ e.children, BuiltBare child) → BuiltBare e
  | operator {family : Family} {op : Operator} {args : List Expr} {node : Expr} :
      (∀ arg ∈ args, BuiltBare arg) → op.fits args → Expr.apply family op args = .ok node →
      BuiltBare node
  | part {e child : Expr} : BuiltBare e → child ∈ e.children → BuiltBare child

theorem BuiltBare.throughout {e : Expr} (h : e.BuiltBare) :
    e.Throughout fun e => e.isSettled ∧ e.isBare := by
  induction h with
  | plain noOperator _ ih => exact bare_closed.plain _ noOperator ih
  | operator _ fits applied ih =>
    obtain ⟨checked, settled, found, rfl⟩ := apply_eq_ok_iff.mp applied
    refine bare_settled checked fits ?_ ?_ found
    · intro arg member resolved
      exact bare_closed.synthesisInvariant.of_resolve (ih arg (Operator.mem_of_mem_read member))
    · intro arg member
      exact ih arg (Operator.mem_of_mem_kept member)
  | part _ member ih => exact ih.child member

theorem BuiltBare.built {e : Expr} (h : e.BuiltBare) : e.Built := by
  induction h with
  | plain noOperator _ ih => exact .plain noOperator ih
  | operator _ _ applied ih => exact .operator ih applied
  | part _ member ih => exact ih.part member

theorem builtBare_closed : Closed BuiltBare where
  plain e noOperator parts := .plain noOperator parts
  part e h child member := h.part member
  applied op args p fits read kept found := by
    refine .operator ?_ fits (apply_toExpr found)
    intro arg member
    rw [← Operator.read_append_kept op args, List.mem_append] at member
    rcases member with member | member
    · exact (read arg member).1
    · exact kept arg member
  swapped family op other args p swap few held found := by
    obtain ⟨⟨_, plain⟩, bare⟩ := held.throughout.here
    have fits : other.fits args := by
      intro negative
      rw [Operator.counterpart_isPositive swap] at negative
      exact bare (.inr negative)
    rw [← Operator.counterpart_read swap] at plain
    rw [SpecifierReading.absent_predicate_of_plain plain] at found
    refine .operator ?_ fits (apply_toExpr found)
    intro arg member
    exact held.part member

/-- Applying the operator of a boolean node to its operands makes the same node exactly if none of
them is NOOP. -/
theorem Built.rebuilt_iff {op : Operator} {args : List Expr} (built : (complex .boolean op args).Built) :
    Predicate.apply op args = .ok ⟨op, args⟩ ↔ (complex .boolean op args).isUnwrapped := by
  have apart := apart_nodeProperty.throughout_built built
  have passes := (passesCheck_nodeProperty.throughout_built built).here
  have counted : ∀ arg ∈ args, arg.isSettled := by
    intro arg member
    exact (apart.child member).here.1
  rw [Predicate.apply_of_settled apart.here.1 passes, ← arrange_eq_self_iff apart.here.2 counted]
  simp

theorem Built.throughout_built {e : Expr} (built : e.Built) : e.Throughout Built := by
  induction e using childrenInduction with
  | step e ih => exact .intro built fun child member => ih child member (built.part member)

/-- Operands are kept apart in everything that is built, a boolean node is made of its operands again
exactly if none of them is NOOP, and so is the one that a negation results in. None is where NOT and
NOOP are never put around NOOP, and negation never puts them there. -/
theorem Built.normalForm {e : Expr} (built : e.Built) :
    e.Throughout keepsApart ∧
      (e.Throughout fun node => ∀ op args, node = complex .boolean op args →
        (Predicate.apply op args = .ok ⟨op, args⟩ ↔ node.isUnwrapped)) ∧
      (∀ op args, e.invert = .ok (complex .boolean op args) →
        (Predicate.negation e = .ok ⟨op, args⟩ ↔ (complex .boolean op args).isUnwrapped)) ∧
      (e.BuiltBare → e.Throughout isUnwrapped ∧
        ∀ r, e.invert = .ok r → r.BuiltBare ∧ r.Throughout isUnwrapped) := by
  have unwrapped {e : Expr} (bare : e.BuiltBare) : e.Throughout isUnwrapped :=
    bare.throughout.mono fun _ held => held.2.isUnwrapped
  refine ⟨?_, ?_, ?_, ?_⟩
  · exact (apart_nodeProperty.throughout_built built).mono fun _ held => held.2
  · refine built.throughout_built.mono ?_
    rintro _ node op args rfl
    exact node.rebuilt_iff
  · intro op args inverted
    have same : Predicate.negation e = Predicate.apply op args := by
      rw [Predicate.negation, inverted]
      rfl
    rw [same]
    exact (built.inverted inverted).rebuilt_iff
  · intro bare
    refine ⟨unwrapped bare, ?_⟩
    intro r inverted
    have negated := builtBare_closed.invert bare inverted
    exact ⟨negated, unwrapped negated⟩

theorem Built.normalForm_disjunction :
    Predicate.negation (complex .boolean .or [complex .boolean .not [.identifier "a"],
        .identifier "b"]) =
      .ok ⟨.and, [.identifier "a", complex .boolean .not [.identifier "b"]]⟩ ∧
    (complex .boolean .and [.identifier "a", complex .boolean .not [.identifier "b"]]).Throughout
      isUnwrapped := by
  have column (name : String) : (Expr.identifier name).BuiltBare := .plain rfl (by simp [children])
  have negated : Expr.apply .boolean .not [.identifier "a"] =
      .ok (complex .boolean .not [.identifier "a"]) := rfl
  have joined : Expr.apply .boolean .or [complex .boolean .not [.identifier "a"], .identifier "b"] =
      .ok (complex .boolean .or [complex .boolean .not [.identifier "a"], .identifier "b"]) := rfl
  have operand : (complex .boolean .not [.identifier "a"]).BuiltBare :=
    .operator (by simp [column]) (by simp [Operator.fits, operator?]) negated
  have bare : (complex .boolean .or [complex .boolean .not [.identifier "a"],
      .identifier "b"]).BuiltBare :=
    .operator (by simp [operand, column]) (Operator.fits_of_isPositive rfl _) joined
  have inverted : (complex .boolean .or [complex .boolean .not [.identifier "a"],
      .identifier "b"]).invert =
      .ok (complex .boolean .and [.identifier "a", complex .boolean .not [.identifier "b"]]) := rfl
  obtain ⟨_, _, rebuilt, unwrapped⟩ := Built.normalForm bare.built
  obtain ⟨_, kept⟩ := (unwrapped bare).2 _ inverted
  exact ⟨(rebuilt .and _ inverted).mpr kept.here, kept⟩

/-- Of NOOP in NOOP one is left under AND. -/
theorem not_throughout_isUnwrapped :
    ¬ ∀ e : Expr, e.Built → e.Throughout isUnwrapped := by
  intro always
  have once : Expr.apply .boolean .noop [.identifier "a"] =
      .ok (complex .boolean .noop [.identifier "a"]) := rfl
  have twice : Expr.apply .boolean .noop [complex .boolean .noop [.identifier "a"]] =
      .ok (complex .boolean .noop [complex .boolean .noop [.identifier "a"]]) := rfl
  have joined : Expr.apply .boolean .and
      [complex .boolean .noop [complex .boolean .noop [.identifier "a"]], .identifier "b"] =
      .ok (complex .boolean .and [complex .boolean .noop [.identifier "a"], .identifier "b"]) := rfl
  have inner := Built.operator (by simp [Built.identifier]) once
  have outer := Built.operator (by simpa using inner) twice
  have built := Built.operator (by simp [outer, Built.identifier]) joined
  exact (always _ built).here rfl (complex .boolean .noop [.identifier "a"]) (by simp) rfl

end Expr

end SqlExpr
