import SqlExpr.Proofs.Flattening
import SqlExpr.Proofs.Inversion
import SqlExpr.Proofs.SynthesisInvariant

/-!
How deeply condition specifiers are nested in one another where they can be read as predicates. What
a specifier stands for is nested less deeply than the specifier, so that reading specifiers over and
over comes to an end.
-/

namespace SqlExpr

namespace Expr

mutual

/-- Specifiers and lists count; operator nodes have the nesting of the operands they read, other
nodes have none. -/
def nesting : Expr → Nat
  | list items => nestingAll items + 1
  | conditions _ pairs => nestingPairs pairs + 1
  | complex _ op args => if op.isMembership then nestingFirst args else nestingAll args
  | _ => 0

def nestingFirst : List Expr → Nat
  | [] => 0
  | e :: _ => e.nesting

def nestingAll : List Expr → Nat
  | [] => 0
  | e :: rest => max e.nesting (nestingAll rest)

def nestingPairs : List (Expr × Expr) → Nat
  | [] => 0
  | (k, v) :: rest => max (max k.nesting v.nesting) (nestingPairs rest)

end

theorem nestingAll_le_iff {items : List Expr} {bound : Nat} :
    nestingAll items ≤ bound ↔ ∀ item ∈ items, item.nesting ≤ bound := by
  induction items with
  | nil => simp [nestingAll]
  | cons e rest ih => rw [nestingAll, Nat.max_le, ih, List.forall_mem_cons]

theorem nestingPairs_le_iff {pairs : List (Expr × Expr)} {bound : Nat} :
    nestingPairs pairs ≤ bound ↔ ∀ side ∈ sides pairs, side.nesting ≤ bound := by
  induction pairs with
  | nil => simp [nestingPairs, sides]
  | cons pair rest ih =>
    obtain ⟨k, v⟩ := pair
    simp only [nestingPairs, Nat.max_le, ih]
    simp [sides, and_assoc]

theorem nesting_complex_le_iff {family : Family} {op : Operator} {args : List Expr} {bound : Nat} :
    (complex family op args).nesting ≤ bound ↔ ∀ arg ∈ op.read args, arg.nesting ≤ bound := by
  rw [nesting]
  unfold Operator.read
  split
  · cases args <;> simp [nestingFirst]
  · exact nestingAll_le_iff

theorem nesting_le_of_mem_read {family : Family} {op : Operator} {args : List Expr} {arg : Expr}
    (member : arg ∈ op.read args) : arg.nesting ≤ (complex family op args).nesting :=
  nesting_complex_le_iff.mp (Nat.le_refl _) arg member

theorem nesting_named (name : String) : (named name).nesting = 0 := by
  unfold named
  split
  · split <;> rfl
  · rfl

theorem nesting_pos_of_isSpecifier {e : Expr} (specifier : e.isSpecifier = true) :
    0 < e.nesting := by
  cases e <;> simp_all [isSpecifier, nesting]

/-! The depth of an expression bounds the nesting in it. -/

theorem depth_le_depthAll {items : List Expr} {item : Expr} (member : item ∈ items) :
    item.depth ≤ depthAll items := by
  induction items with
  | nil => cases member
  | cons e rest ih =>
    rw [depthAll]
    rcases List.mem_cons.mp member with rfl | member
    · exact Nat.le_max_left _ _
    · exact Nat.le_trans (ih member) (Nat.le_max_right _ _)

theorem depth_le_depthPairs {pairs : List (Expr × Expr)} {side : Expr}
    (member : side ∈ sides pairs) : side.depth ≤ depthPairs pairs := by
  induction pairs with
  | nil => cases member
  | cons pair rest ih =>
    obtain ⟨k, v⟩ := pair
    rw [depthPairs]
    simp only [sides, List.flatMap_cons, List.mem_append, List.mem_cons, List.not_mem_nil,
      or_false] at member
    rcases member with (rfl | rfl) | member
    · omega
    · omega
    · have later := ih member
      omega

theorem nesting_le_depth (e : Expr) : e.nesting ≤ e.depth := by
  induction e using childrenInduction with
  | step e ih =>
    cases e
    case list items =>
      rw [nesting, depth, Nat.add_le_add_iff_right, nestingAll_le_iff]
      intro item member
      exact Nat.le_trans (ih item member) (depth_le_depthAll member)
    case conditions kind pairs =>
      rw [nesting, depth, Nat.add_le_add_iff_right, nestingPairs_le_iff]
      intro side member
      exact Nat.le_trans (ih side member) (depth_le_depthPairs member)
    case complex family op args =>
      rw [nesting_complex_le_iff, depth]
      intro arg member
      have inside := Operator.mem_of_mem_read member
      have small := ih arg inside
      have within := depth_le_depthAll inside
      omega
    all_goals exact Nat.zero_le _

end Expr

/-! Nodes made of operands that are nested to a bound. -/

theorem nesting_flatten_le {op : Operator} (many : op.arity = .many) {operands : List Expr}
    {bound : Nat} (every : ∀ operand ∈ operands, operand.nesting ≤ bound) :
    ∀ arg ∈ flatten op operands, arg.nesting ≤ bound := by
  refine forall_mem_flatten every ?_ ?_
  · intro family e h
    exact Expr.nesting_complex_le_iff.mp h e (by simp [Operator.read, Operator.isMembership])
  · intro family args h
    rw [Expr.nesting_complex_le_iff, Operator.read_of_many many] at h
    exact h

theorem nesting_arrange_le {family : Family} {op : Operator} {settled : List Expr} {bound : Nat}
    (every : ∀ arg ∈ op.read settled, arg.nesting ≤ bound) :
    (Expr.complex family op (op.arrange settled)).nesting ≤ bound := by
  rw [Expr.nesting_complex_le_iff]
  by_cases many : op.arity = .many
  · rw [Operator.read_of_many many] at every ⊢
    rw [Operator.arrange_of_many many]
    exact nesting_flatten_le many every
  · rw [Operator.arrange_of_not_many many]
    exact every

theorem nesting_absent_predicate_le {op : Operator} {args : List Expr} {p : Predicate} {bound : Nat}
    (every : ∀ arg ∈ op.read args, arg.nesting ≤ bound)
    (found : SpecifierReading.absent.predicate op args = .ok p) :
    p.op = op ∧ p.toExpr.nesting ≤ bound := by
  obtain ⟨_, settled, settles, rfl⟩ := Predicate.assemble_eq_ok_iff.mp found
  have same : settle op (args.map SpecifierReading.absent.operand) = .ok args :=
    settle_map_plain op args
  rw [same] at settles
  cases settles
  exact ⟨rfl, nesting_arrange_le every⟩

theorem nesting_absent_invert_le {e r : Expr} (found : SpecifierReading.absent.invert e = .ok r) :
    r.nesting ≤ e.nesting := by
  induction e using Expr.childrenInduction generalizing r with
  | step e ih =>
    cases SpecifierReading.negates_of_invert found with
    | node scalars swapped =>
      rename_i family op args p
      have inside : ∀ arg ∈ op.read args, arg.nesting ≤ (Expr.complex family op args).nesting :=
        fun arg member => Expr.nesting_le_of_mem_read member
      obtain ⟨other, swap, applied⟩ := SpecifierReading.invertNode_eq_ok_iff.mp swapped
      rcases applied with ⟨connective, negated, each, applied⟩ | ⟨_, applied⟩
      · have many := Operator.many_of_isConnective connective
        rw [Operator.read_of_many many] at inside
        refine (nesting_absent_predicate_le ?_ applied).2
        rw [Operator.counterpart_read swap, Operator.read_of_many many]
        refine forall_of_mapM each ?_
        intro arg member r negated
        exact Nat.le_trans (ih arg member negated) (inside arg member)
      · refine (nesting_absent_predicate_le ?_ applied).2
        rw [Operator.counterpart_read swap]
        exact inside
    | truth | null | opposite => exact Nat.zero_le _
    | specifier _ negated => cases negated
    | leaf _ wrapped =>
      exact (nesting_absent_predicate_le (by simp [Operator.read, Operator.isMembership])
        wrapped).2

/-! The nesting of what synthesis makes. -/

def Operator.isPositive : Operator → Bool
  | not | noop => false
  | _ => true

theorem Operator.counterpart_isPositive {op other : Operator} (h : op.counterpart = some other) :
    other.isPositive = op.isPositive := by
  cases op <;> cases h <;> rfl

theorem Operator.isPositive_of_length_ne_one {op : Operator} {count : Nat}
    (accepted : op.arity.accepts count = true) (several : count ≠ 1) : op.isPositive = true := by
  cases op <;> simp_all [arity, Arity.accepts, isPositive]

theorem nesting_synthesisInvariant (bound : Nat) :
    SynthesisInvariant (·.nesting ≤ bound) (fun _ => True)
      fun p => p.toExpr.nesting ≤ bound ∧ p.op.isPositive = true where
  toExpr _ h := h.1
  kept_of_good _ _ := trivial
  value _ := Nat.zero_le _
  items items h := by
    rw [Expr.nesting] at h
    exact Expr.nestingAll_le_iff.mp (by omega)
  pairs kind pairs h := by
    rw [Expr.nesting] at h
    exact Expr.nestingPairs_le_iff.mp (by omega)
  asList _ _ := trivial
  columns key h column member := by
    rcases Expr.mem_columns member with rfl | ⟨name, rfl⟩ | ⟨table, names, name, _, rfl⟩
    · exact h
    · simp [Expr.nesting_named]
    · exact Nat.zero_le _
  qualify _ _ _ _ := Nat.zero_le _
  apply op args p several every _ found := by
    obtain ⟨checked, settled, settles, rfl⟩ := Predicate.apply_eq_ok_iff.mp found
    refine ⟨nesting_arrange_le ?_, ?_⟩
    · exact forall_mem_read_of_settle settles fun arg member => (every arg member).2
    · exact Operator.isPositive_of_length_ne_one (checkOperands_eq_ok_iff.mp checked).2 several
  opposite p q h found := by
    have negated : SpecifierReading.absent.invert p.toExpr = .ok q.toExpr := by
      rw [Predicate.absent_invert_toExpr, found]
      rfl
    refine ⟨Nat.le_trans (nesting_absent_invert_le negated) h.1, ?_⟩
    rw [Operator.counterpart_isPositive (SpecifierReading.op_of_invertNode found)]
    exact h.2

theorem nesting_le_of_predicates {pairs : List (Expr × Expr)} {ps : List Predicate} {bound : Nat}
    (sides : ∀ side ∈ Expr.sides pairs, side.nesting ≤ bound) (found : predicates pairs = .ok ps) :
    ∀ p ∈ ps, p.toExpr.nesting ≤ bound ∧ p.op.isPositive = true :=
  (nesting_synthesisInvariant bound).of_predicates sides found

theorem nesting_sides_lt {e : Expr} {c : Conditions} (found : Conditions.ofSpecifier? e = some c) :
    ∀ side ∈ Expr.sides c.pairs, side.nesting < e.nesting := by
  rcases Conditions.of_ofSpecifier? found with ⟨kind, rfl⟩ | ⟨items, rfl, inside⟩
  · intro side member
    rw [Expr.nesting]
    exact Nat.lt_succ_of_le (Expr.nestingPairs_le_iff.mp (Nat.le_refl _) side member)
  · intro side member
    obtain ⟨pair, inList, inPair⟩ := inside side member
    have outer := Expr.nestingAll_le_iff.mp (Nat.le_refl _) _ inList
    have inner := Expr.nestingAll_le_iff.mp (Nat.le_refl _) _ inPair
    rw [Expr.nesting] at outer ⊢
    omega

theorem nesting_ofPair_lt {e k v : Expr} {c : Conditions} {p : Predicate}
    (specifier : Conditions.ofSpecifier? e = some c) (member : (k, v) ∈ c.pairs)
    (found : Predicate.ofPair k v = .ok p) :
    p.toExpr.nesting < e.nesting ∧ p.op.isPositive = true := by
  have key := nesting_sides_lt specifier k (Expr.mem_sides.mpr ⟨(k, v), member, .inl rfl⟩)
  have held := nesting_sides_lt specifier v (Expr.mem_sides.mpr ⟨(k, v), member, .inr rfl⟩)
  have fine := (nesting_synthesisInvariant (e.nesting - 1)).of_ofPair (by omega) (by omega) found
  exact ⟨by omega, fine.2⟩

theorem nesting_predicates_lt {e : Expr} {c : Conditions} {ps : List Predicate}
    (specifier : Conditions.ofSpecifier? e = some c) (found : predicates c.pairs = .ok ps) :
    ∀ p ∈ ps, p.toExpr.nesting < e.nesting ∧ p.op.isPositive = true := by
  rw [predicates_eq_mapM] at found
  refine forall_of_mapM found ?_
  intro (k, v) member p pair
  exact nesting_ofPair_lt specifier member pair

theorem nesting_resolve_lt {e resolved : Expr} (specifier : e.isSpecifier = true)
    (found : e.resolve = .ok resolved) : resolved.nesting < e.nesting := by
  obtain ⟨c, pairs⟩ := Expr.exists_ofSpecifier? specifier
  have positive := Expr.nesting_pos_of_isSpecifier specifier
  have sides (side : Expr) (member : side ∈ Expr.sides c.pairs) : side.nesting ≤ e.nesting - 1 := by
    have smaller := nesting_sides_lt pairs side member
    omega
  simp only [Expr.resolve_of_ofSpecifier? pairs, bind_eq_ok_iff, pure_eq_ok_iff] at found
  obtain ⟨ps, each, p, joined, rfl⟩ := found
  have bounded := (nesting_synthesisInvariant (e.nesting - 1)).join
    (nesting_le_of_predicates sides each) joined
  omega

/-- What holds of an expression whenever it holds of all that is nested less deeply, and of the parts
that are not nested more deeply, holds of all. -/
theorem Expr.nestingInduction {motive : Expr → Prop}
    (step : ∀ e, (∀ inner : Expr, inner.nesting < e.nesting → motive inner) →
      (∀ child ∈ e.children, child.nesting ≤ e.nesting → motive child) → motive e)
    (e : Expr) : motive e :=
  step e (fun inner _ => nestingInduction step inner) fun child _ _ => nestingInduction step child
termination_by (e.nesting, sizeOf e)
decreasing_by
  · exact Prod.Lex.left _ _ ‹_›
  · exact Prod.Lex.right' _ ‹_› (sizeOf_lt_of_mem_children ‹_›)

end SqlExpr
