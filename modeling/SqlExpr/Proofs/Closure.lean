import SqlExpr.Proofs.InversionEquations

/-!
Classes of expressions that construction does not leave: nodes without operator, parts of nodes, and
what operators make of operands. Neither synthesis nor negation leaves such a class.
-/

namespace SqlExpr

namespace SpecifierReading

/-- Where no operand is a specifier, it does not matter that none could be read. -/
theorem absent_predicate_of_plain {op : Operator} {args : List Expr}
    (plain : ∀ arg ∈ op.read args, arg.isSpecifier = false) :
    absent.predicate op args = Predicate.apply op args := by
  rw [predicate, Predicate.assemble_eq_apply]
  · simp [operand, Function.comp_def]
  · rw [Operator.read_map, List.forall_mem_map]
    intro arg member
    exact (Expr.resolve_of_isSpecifier_eq_false (plain arg member)).symm

theorem eq_of_absent_predicate {op : Operator} {args : List Expr} {p : Predicate}
    (few : op.arity ≠ .many) (found : absent.predicate op args = .ok p) : p = ⟨op, args⟩ := by
  obtain ⟨_, settled, settles, rfl⟩ := Predicate.assemble_eq_ok_iff.mp found
  have same : settle op (args.map absent.operand) = .ok args := settle_map_plain op args
  rw [same] at settles
  cases settles
  rw [Operator.arrange_of_not_many few]

end SpecifierReading

open SpecifierReading

def Expr.operator? : Expr → Option Operator
  | .complex _ op _ => some op
  | _ => none

theorem Expr.operator?_of_isSpecifier {e : Expr} (specifier : e.isSpecifier = true) :
    e.operator? = none := by
  cases e <;> first | rfl | cases specifier

theorem Expr.operator?_of_isTruthLeaf {e : Expr} (leaf : e.isTruthLeaf = true) :
    e.operator? = none := by
  cases e <;> first | rfl | cases leaf

/-- NOT and NOOP are put around other nodes than those of NOOP. -/
def Operator.fits (op : Operator) (args : List Expr) : Prop :=
  op.isPositive = false → ∀ arg ∈ args, arg.operator? ≠ some .noop

namespace Operator

theorem fits_of_isPositive {op : Operator} (positive : op.isPositive = true) (args : List Expr) :
    op.fits args := by
  intro negative
  rw [positive] at negative
  cases negative

theorem fits_of_isConnective {op : Operator} (connective : op.isConnective) (args : List Expr) :
    op.fits args := by
  apply fits_of_isPositive
  rcases connective with rfl | rfl <;> rfl

theorem fits_of_length_ne_one {op : Operator} {args : List Expr} {p : Predicate}
    (several : args.length ≠ 1) (applied : Predicate.apply op args = .ok p) : op.fits args := by
  obtain ⟨checked, _⟩ := Predicate.apply_eq_ok_iff.mp applied
  have accepted := (checkOperands_eq_ok_iff.mp checked).2
  exact fits_of_isPositive (isPositive_of_length_ne_one accepted several) args

theorem fits_single (op : Operator) {e : Expr} (noOperator : e.operator? = none) : op.fits [e] := by
  simp [fits, noOperator]

end Operator

/-- The class has the nodes without operator whose parts it has, the parts of what it has, and what
operators make of it, but perhaps not what NOT and NOOP make of a node of NOOP. An operator may give way
to its counterpart on the same operands. -/
structure Closed (good : Expr → Prop) : Prop where
  plain : ∀ e, e.family = none → (∀ child ∈ e.children, good child) → good e
  part : ∀ e, good e → ∀ child ∈ e.children, good child
  applied : ∀ op args p, op.fits args → (∀ arg ∈ op.read args, arg.Resolves good) →
    (∀ arg ∈ op.kept args, good arg) → Predicate.apply op args = .ok p → good p.toExpr
  swapped : ∀ family op other args p, op.counterpart = some other → ¬op.isConnective →
    good (.complex family op args) → absent.predicate other args = .ok p → good p.toExpr

namespace Closed

variable {good : Expr → Prop} (closed : Closed good)

include closed

theorem leaf {e : Expr} (noOperator : e.family = none) (childless : e.children = []) : good e :=
  closed.plain e noOperator (by simp [childless])

theorem absent_predicate {op : Operator} {args : List Expr} {p : Predicate} (fits : op.fits args)
    (every : ∀ arg ∈ args, good arg) (plain : ∀ arg ∈ op.read args, arg.isSpecifier = false)
    (found : absent.predicate op args = .ok p) : good p.toExpr := by
  rw [absent_predicate_of_plain plain] at found
  refine closed.applied op args p fits ?_ ?_ found
  · intro arg member
    exact .of_plain (plain arg member) (every arg (Operator.mem_of_mem_read member))
  · intro arg member
    exact every arg (Operator.mem_of_mem_kept member)

theorem absent_invert {e r : Expr} (held : good e) (found : absent.invert e = .ok r) :
    good r ∧ r.isSpecifier = false := by
  induction e using Expr.childrenInduction generalizing r with
  | step e ih =>
    cases negates_of_invert found with
    | node _ swapped =>
      refine ⟨?_, rfl⟩
      obtain ⟨other, swap, ⟨connective, negated, inverted, applied⟩ | ⟨few, applied⟩⟩ :=
        invertNode_eq_ok_iff.mp swapped
      · have each : ∀ arg ∈ negated, good arg ∧ arg.isSpecifier = false := by
          refine forall_of_mapM inverted ?_
          intro arg member r found
          exact ih arg member (closed.part _ held arg member) found
        have opposite := Operator.isConnective_of_counterpart swap connective
        refine closed.absent_predicate (Operator.fits_of_isConnective opposite _) ?_ ?_ applied
        · intro arg member
          exact (each arg member).1
        · intro arg member
          exact (each arg (Operator.mem_of_mem_read member)).2
      · exact closed.swapped _ _ other _ _ swap few held applied
    | truth | null | opposite => exact ⟨closed.leaf rfl rfl, rfl⟩
    | specifier _ negated => cases negated
    | leaf truth wrapped =>
      have plain := Expr.isSpecifier_of_isTruthLeaf truth
      have fits := Operator.fits_single .not (Expr.operator?_of_isTruthLeaf truth)
      refine ⟨closed.absent_predicate fits (by simpa using held) ?_ wrapped, rfl⟩
      simpa [Operator.read, Operator.isMembership] using plain

/-! The columns that a key names. -/

theorem named (name : String) : good (.named name) := by
  have identifier (name : String) : good (.identifier name) := closed.leaf rfl rfl
  unfold Expr.named
  split
  · split
    · exact identifier name
    · refine closed.plain _ rfl ?_
      simpa [Expr.children] using ⟨identifier _, identifier _⟩
  · exact identifier name

theorem qualify {table column : Expr} (first : good table) (second : good column) :
    good (.qualify table column) := by
  have part {e : Expr} (h : good e) : good e.qualifierPart := by
    unfold Expr.qualifierPart
    split
    · exact closed.leaf rfl rfl
    · exact h
  refine closed.plain _ rfl ?_
  simpa [Expr.qualify, Expr.children] using ⟨part first, part second⟩

theorem columns {key column : Expr} (h : good key) (member : column ∈ key.columns) :
    good column := by
  rcases Expr.mem_columns member with rfl | ⟨name, rfl⟩ | ⟨table, names, name, rfl, rfl⟩
  · exact h
  · exact closed.named name
  · exact closed.qualify (closed.part _ h table (by simp [Expr.children])) (closed.leaf rfl rfl)

theorem asList {pairs : List (Expr × Expr)} (sides : ∀ side ∈ Expr.sides pairs, good side) :
    good (Conditions.asList ⟨.pairs, pairs⟩) := by
  refine closed.plain _ rfl ?_
  intro item member
  obtain ⟨pair, inside, rfl⟩ := List.mem_map.mp member
  refine closed.plain _ rfl ?_
  intro side within
  apply sides
  exact Expr.mem_sides.mpr ⟨pair, inside, by simpa [Expr.ofPair, Expr.children] using within⟩

theorem synthesisInvariant : SynthesisInvariant good good (good ·.toExpr) where
  toExpr _ h := h
  kept_of_good _ h := h
  value _ := closed.leaf rfl rfl
  items _ h := closed.part _ h
  pairs _ _ h := closed.part _ h
  asList _ h := closed.asList (closed.part _ h)
  columns _ h _ member := closed.columns h member
  qualify _ _ first second := closed.qualify first second
  apply op args p several read kept found :=
    closed.applied op args p (Operator.fits_of_length_ne_one several found) read kept found
  opposite p q h found := by
    have negated : absent.invert p.toExpr = .ok q.toExpr := by
      rw [Predicate.absent_invert_toExpr, found]
      rfl
    exact (closed.absent_invert h negated).1

/-! Specifiers of any nesting. -/

theorem apply {op : Operator} {args : List Expr} {p : Predicate} (fits : op.fits args)
    (every : ∀ arg ∈ args, good arg) (applied : Predicate.apply op args = .ok p) :
    good p.toExpr := by
  refine closed.applied op args p fits ?_ ?_ applied
  · intro arg member
    exact closed.synthesisInvariant.resolves (every arg (Operator.mem_of_mem_read member))
  · intro arg member
    exact every arg (Operator.mem_of_mem_kept member)

theorem swap {family : Family} {op other : Operator} {args : List Expr} {p : Predicate}
    (swap : op.counterpart = some other) (few : ¬op.isConnective)
    (held : good (.complex family op args)) (applied : Predicate.apply other args = .ok p) :
    good p.toExpr := by
  have every : ∀ arg ∈ args, good arg := closed.part _ held
  by_cases single : args.length = 1
  · obtain ⟨e, rfl⟩ := List.length_eq_one_iff.mp single
    cases specifier : e.isSpecifier with
    | true =>
      have fits := Operator.fits_single other (Expr.operator?_of_isSpecifier specifier)
      exact closed.apply fits every applied
    | false =>
      rw [← absent_predicate_of_plain fun arg member =>
        List.mem_singleton.mp (Operator.mem_of_mem_read member) ▸ specifier] at applied
      exact closed.swapped family op other [e] p swap few held applied
  · exact closed.apply (Operator.fits_of_length_ne_one single applied) every applied

theorem invertNode {family : Family} {op : Operator} {args : List Expr} {p : Predicate}
    (held : good (.complex family op args))
    (each : ∀ arg ∈ op.read args, ∀ r, arg.invert = .ok r → good r)
    (found : Expr.invertNode family op args = .ok p) : good p.toExpr := by
  obtain ⟨other, swap, ⟨connective, negated, inverted, applied⟩ | ⟨few, applied⟩⟩ :=
    Expr.invertNode_eq_ok_iff.mp found
  · rw [Operator.read_of_many (Operator.many_of_isConnective connective)] at each
    have opposite := Operator.isConnective_of_counterpart swap connective
    exact closed.apply (Operator.fits_of_isConnective opposite _) (forall_of_mapM inverted each)
      applied
  · exact closed.swap swap few held applied

theorem of_predicates {e : Expr} {c : Conditions} {ps : List Predicate} (held : good e)
    (specifier : Conditions.ofSpecifier? e = some c) (found : predicates c.pairs = .ok ps) :
    ∀ p ∈ ps, good p.toExpr := by
  refine closed.synthesisInvariant.of_predicates ?_ found
  intro side member
  rcases Conditions.of_ofSpecifier? specifier with ⟨kind, rfl⟩ | ⟨items, rfl, inside⟩
  · exact closed.part _ held side member
  · obtain ⟨pair, inList, inPair⟩ := inside side member
    exact closed.part _ (closed.part _ held (.list pair) inList) side inPair

theorem invert {e r : Expr} (held : good e) (found : e.invert = .ok r) : good r := by
  -- The predicates of a specifier are no parts of it, so the induction is on the nesting first.
  induction e using Expr.nestingInduction generalizing r with
  | step e below inside =>
    cases Expr.negates_of_invert found with
    | node _ swapped =>
      rw [← Expr.invertNode_eq_full] at swapped
      refine closed.invertNode held ?_ swapped
      intro arg member r inverted
      have within := Operator.mem_of_mem_read member
      exact inside arg within (Expr.nesting_le_of_mem_read member) (closed.part _ held arg within)
        inverted
    | truth | null | opposite => exact closed.leaf rfl rfl
    | specifier specifier _ =>
      rw [Expr.invert_of_ofSpecifier? specifier, map_eq_ok_iff] at found
      obtain ⟨p, negated, rfl⟩ := found
      obtain ⟨ps, predicates, qs, each, joined⟩ :=
        Predicate.ofConditions_negated_eq_ok_iff.mp negated
      refine closed.synthesisInvariant.join (forall_of_mapM each ?_) joined
      intro q member r inverted
      have good := closed.of_predicates held specifier predicates q member
      refine below q.toExpr (nesting_predicates_lt specifier predicates q member).1 good ?_
      rw [Predicate.invert_toExpr, inverted]
      rfl
    | leaf truth wrapped =>
      have fits := Operator.fits_single .not (Expr.operator?_of_isTruthLeaf truth)
      exact closed.apply fits (by simpa using held) wrapped

theorem inverted {p q : Predicate} (held : good p.toExpr) (found : p.inverted = .ok q) :
    good q.toExpr := by
  apply closed.invert held
  rw [Predicate.invert_toExpr, found]
  rfl

theorem ofConditions {c : Conditions} {connective : Operator} {negate : Bool} {p : Predicate}
    (sides : ∀ side ∈ Expr.sides c.pairs, good side)
    (found : Predicate.ofConditions c connective negate = .ok p) : good p.toExpr := by
  have inv := closed.synthesisInvariant
  cases negate with
  | false =>
    obtain ⟨ps, predicates, joined⟩ := Predicate.ofConditions_eq_ok_iff.mp found
    exact inv.join (inv.of_predicates sides predicates) joined
  | true =>
    obtain ⟨ps, predicates, qs, each, joined⟩ := Predicate.ofConditions_negated_eq_ok_iff.mp found
    have every := inv.of_predicates sides predicates
    refine inv.join (forall_of_mapM each ?_) joined
    intro p member q
    exact closed.inverted (every p member)

end Closed

end SqlExpr
