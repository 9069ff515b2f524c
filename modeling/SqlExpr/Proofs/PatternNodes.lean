import SqlExpr.Proofs.DeMorgan
import SqlExpr.Proofs.ScalarOperands

/-!
Patterns that are left in an expression. A pattern stays one where it is an operand and turns into a
string where it is matched: said for each way to make a predicate, when a pattern is left in it.
-/

namespace SqlExpr

namespace Expr

/-- A pattern is in the expression, or is the expression. -/
inductive HoldsPattern : Expr → Prop
  | here (p : Pattern) : HoldsPattern (pattern p)
  | inside {e child : Expr} : child ∈ e.children → HoldsPattern child → HoldsPattern e

theorem holdsPattern_iff {e : Expr} (other : ∀ p, e ≠ pattern p) :
    e.HoldsPattern ↔ ∃ child ∈ e.children, child.HoldsPattern := by
  constructor
  · intro held
    cases held with
    | here p => exact absurd rfl (other p)
    | inside member below => exact ⟨_, member, below⟩
  · rintro ⟨child, member, below⟩
    exact .inside member below

theorem not_holdsPattern_of_childless {e : Expr} (other : ∀ p, e ≠ pattern p)
    (childless : e.children = []) : ¬e.HoldsPattern := by
  simp [holdsPattern_iff other, childless]

@[simp] theorem holdsPattern_complex (family : Family) (op : Operator) (args : List Expr) :
    (complex family op args).HoldsPattern ↔ ∃ arg ∈ args, arg.HoldsPattern :=
  holdsPattern_iff (by simp)

/-- What a value is matched with: the items of a list, or the value. -/
def candidates : Expr → List Expr
  | list items => items
  | e => [e]

theorem holdsPattern_withoutNoop (e : Expr) : (withoutNoop e).HoldsPattern ↔ e.HoldsPattern := by
  rcases withoutNoop_cases e with same | ⟨family, wrapped⟩
  · rw [same]
  · conv_rhs => rw [wrapped]
    simp

end Expr

def AnyPattern (args : List Expr) : Prop :=
  ∃ arg ∈ args, arg.HoldsPattern

theorem anyPattern_append {first second : List Expr} :
    AnyPattern (first ++ second) ↔ AnyPattern first ∨ AnyPattern second := by
  simp only [AnyPattern, List.mem_append, or_and_right, exists_or]

theorem anyPattern_flatMap {items : List Expr} {parts : Expr → List Expr}
    (each : ∀ item ∈ items, AnyPattern (parts item) ↔ item.HoldsPattern) :
    AnyPattern (items.flatMap parts) ↔ AnyPattern items := by
  induction items with
  | nil => rfl
  | cons item rest ih =>
    rw [List.forall_mem_cons] at each
    rw [List.flatMap_cons, anyPattern_append, each.1, ih each.2]
    simp [AnyPattern]

theorem anyPattern_spliced (op : Operator) (leading : Bool) (e : Expr) :
    AnyPattern (spliced op leading e) ↔ e.HoldsPattern := by
  rw [← Expr.holdsPattern_withoutNoop]
  rcases spliced_cases op leading e with single | ⟨family, args, found, contents⟩
  · simp [AnyPattern, single]
  · rw [contents, found, Expr.holdsPattern_complex, AnyPattern]

theorem anyPattern_arrange (op : Operator) (settled : List Expr) :
    AnyPattern (op.arrange settled) ↔ AnyPattern settled := by
  by_cases many : op.arity = .many
  · rw [Operator.arrange_of_many many]
    cases settled with
    | nil => rfl
    | cons first others =>
      rw [flatten, anyPattern_append, anyPattern_spliced,
        anyPattern_flatMap fun operand _ => anyPattern_spliced op false operand]
      simp [AnyPattern]
  · rw [Operator.arrange_of_not_many many]

namespace Predicate

theorem holdsPattern_toExpr (p : Predicate) : p.toExpr.HoldsPattern ↔ AnyPattern p.args :=
  Expr.holdsPattern_complex ..

theorem holdsPattern_apply_plain {op : Operator} {args : List Expr} {p : Predicate}
    (plain : ∀ arg ∈ op.read args, arg.isSpecifier = false) (applied : apply op args = .ok p) :
    p.toExpr.HoldsPattern ↔ AnyPattern args := by
  obtain ⟨_, settled, settles, rfl⟩ := apply_eq_ok_iff.mp applied
  rw [settle_of_plain plain] at settles
  cases settles
  rw [holdsPattern_toExpr, anyPattern_arrange]

theorem holdsPattern_join {connective : Operator} {ps : List Predicate} {p : Predicate}
    (joined : join connective ps = .ok p) :
    p.toExpr.HoldsPattern ↔ ∃ q ∈ ps, q.toExpr.HoldsPattern := by
  by_cases single : ps.length = 1
  · obtain ⟨q, rfl⟩ := List.length_eq_one_iff.mp single
    cases joined
    simp
  · rw [join_of_length_ne_one single] at joined
    rw [holdsPattern_apply_plain ?_ joined]
    · simp [AnyPattern]
    · intro arg member
      obtain ⟨q, _, rfl⟩ := List.mem_map.mp (Operator.mem_of_mem_read member)
      rfl

end Predicate

/-! Negation neither removes a pattern nor brings one in. -/

namespace SpecifierReading

theorem holdsPattern_absent_predicate {op : Operator} {args : List Expr} {p : Predicate}
    (found : absent.predicate op args = .ok p) : p.toExpr.HoldsPattern ↔ AnyPattern args := by
  obtain ⟨_, settled, settles, rfl⟩ := Predicate.assemble_eq_ok_iff.mp found
  have same : settle op (args.map absent.operand) = .ok args := settle_map_plain op args
  rw [same] at settles
  cases settles
  rw [Predicate.holdsPattern_toExpr, anyPattern_arrange]

theorem holdsPattern_absent_invert {e r : Expr} (found : absent.invert e = .ok r) :
    r.HoldsPattern ↔ e.HoldsPattern := by
  induction e using Expr.childrenInduction generalizing r with
  | step e ih =>
    cases negates_of_invert found with
    | node _ swapped =>
      rw [Expr.holdsPattern_complex]
      obtain ⟨other, _, ⟨_, negated, inverted, applied⟩ | ⟨_, applied⟩⟩ :=
        invertNode_eq_ok_iff.mp swapped
      · rw [holdsPattern_absent_predicate applied]
        exact exists_mem_iff_of_mapM inverted fun arg member r found => ih arg member found
      · exact holdsPattern_absent_predicate applied
    | truth | null | opposite => simp [Expr.holdsPattern_iff, Expr.children]
    | specifier _ negated => cases negated
    | leaf truth wrapped =>
      rw [holdsPattern_absent_predicate wrapped]
      simp [AnyPattern]

end SpecifierReading

theorem Expr.holdsPattern_invert {e r : Expr} (settled : e.Throughout isSettled)
    (plain : e.isSpecifier = false) (found : e.invert = .ok r) :
    r.HoldsPattern ↔ e.HoldsPattern := by
  induction e using Expr.childrenInduction generalizing r with
  | step e ih =>
    cases negates_of_invert found with
    | node _ swapped =>
      rw [← invertNode_eq_full] at swapped
      rw [holdsPattern_complex]
      obtain ⟨other, swap, ⟨connective, negated, inverted, applied⟩ | ⟨_, applied⟩⟩ :=
        invertNode_eq_ok_iff.mp swapped
      · have operands := (settled.here.operands (Operator.many_of_isConnective connective)).2
        rw [Predicate.holdsPattern_apply_plain ?_ applied]
        · exact exists_mem_iff_of_mapM inverted fun arg member r found =>
            ih arg member (settled.child member) (operands arg member) found
        · intro arg member
          exact forall_of_mapM inverted (fun _ _ _ => isSpecifier_of_invert) arg
            (Operator.mem_of_mem_read member)
      · refine Predicate.holdsPattern_apply_plain ?_ applied
        rw [Operator.counterpart_read swap]
        exact settled.here.2
    | truth | null | opposite => simp [Expr.holdsPattern_iff, Expr.children]
    | specifier specifier _ =>
      rw [isSpecifier_of_ofSpecifier? specifier] at plain
      cases plain
    | leaf truth wrapped =>
      have applied : Predicate.apply .not [e] = .ok _ := wrapped
      rw [Predicate.holdsPattern_apply_plain ?_ applied]
      · simp [AnyPattern]
      · simpa [Operator.read, Operator.isMembership] using plain

namespace Predicate

theorem holdsPattern_opposite {p q : Predicate} (found : p.opposite = .ok q) :
    q.toExpr.HoldsPattern ↔ p.toExpr.HoldsPattern := by
  apply SpecifierReading.holdsPattern_absent_invert
  rw [absent_invert_toExpr, found]
  rfl

theorem holdsPattern_inverted {p q : Predicate} (settled : p.toExpr.Throughout Expr.isSettled)
    (found : p.inverted = .ok q) : q.toExpr.HoldsPattern ↔ p.toExpr.HoldsPattern := by
  apply Expr.holdsPattern_invert settled rfl
  rw [invert_toExpr, found]
  rfl

end Predicate

/-! What is left of operands that are read, and in predicates. -/

/-- In what the operand stands for a pattern is left exactly if the condition holds. -/
def Expr.Leaves (e : Expr) (left : Prop) : Prop :=
  ∀ resolved, e.resolve = .ok resolved → (resolved.HoldsPattern ↔ left)

theorem Expr.leaves_of_plain {e : Expr} {left : Prop} (plain : e.isSpecifier = false)
    (held : e.HoldsPattern ↔ left) : e.Leaves left := by
  intro resolved found
  rw [resolve_of_isSpecifier_eq_false plain] at found
  cases found
  exact held

theorem Expr.leaves_value (v : Value) : (value v).Leaves False :=
  leaves_of_plain rfl (iff_of_false (not_holdsPattern_of_childless (by simp) rfl) id)

/-- The same of a right operand, which a membership test does not read. -/
def Expr.LeavesUnder (op : Operator) (e : Expr) (left : Prop) : Prop :=
  if op.isMembership then (e.HoldsPattern ↔ left) else e.Leaves left

/-- In the predicate a pattern is left exactly if the condition holds. -/
def Predicate.Leaves (outcome : Except Error Predicate) (left : Prop) : Prop :=
  ∀ p, outcome = .ok p → (p.toExpr.HoldsPattern ↔ left)

namespace Predicate

theorem leaves_congr {outcome : Except Error Predicate} {left left' : Prop} (same : left ↔ left')
    (h : Leaves outcome left) : Leaves outcome left' :=
  fun p found => (h p found).trans same

theorem leaves_apply {op : Operator} {left right : Expr} {first second : Prop}
    (ofLeft : left.Leaves first) (ofRight : right.LeavesUnder op second) :
    Leaves (apply op [left, right]) (first ∨ second) := by
  intro p applied
  obtain ⟨_, settled, settles, rfl⟩ := apply_eq_ok_iff.mp applied
  rw [holdsPattern_toExpr, anyPattern_arrange]
  obtain ⟨read, kept⟩ := settle_of_eq_ok_iff.mp settles
  rw [← Operator.read_append_kept op settled, anyPattern_append, kept]
  generalize op.read settled = heads at read
  cases membership : op.isMembership with
  | true =>
    simp only [Operator.read, Operator.kept, membership, if_true, List.take_succ_cons,
      List.take_zero, List.drop_succ_cons, List.drop_zero] at read ⊢
    obtain ⟨head, _, found, none, rfl⟩ := List.forall₂_cons_left_iff.mp read
    cases List.forall₂_nil_left_iff.mp none
    simp only [Expr.LeavesUnder, membership, if_true] at ofRight
    simp [AnyPattern, ofLeft head found, ofRight]
  | false =>
    simp only [Operator.read, Operator.kept, membership, Bool.false_eq_true, if_false] at read ⊢
    obtain ⟨head, _, found, others, rfl⟩ := List.forall₂_cons_left_iff.mp read
    obtain ⟨last, _, found', none, rfl⟩ := List.forall₂_cons_left_iff.mp others
    cases List.forall₂_nil_left_iff.mp none
    simp only [Expr.LeavesUnder, membership, Bool.false_eq_true, if_false] at ofRight
    simp [AnyPattern, ofLeft head found, ofRight last found']

theorem leaves_apply_read {op : Operator} {left right : Expr} {first second : Prop}
    (read : op.isMembership = false) (ofLeft : left.Leaves first) (ofRight : right.Leaves second) :
    Leaves (apply op [left, right]) (first ∨ second) := by
  refine leaves_apply ofLeft ?_
  simpa [Expr.LeavesUnder, read] using ofRight

theorem leaves_join {α : Type} {items : List α} {step : α → Except Error Predicate}
    {left : α → Prop} (each : ∀ item ∈ items, Leaves (step item) (left item))
    (connective : Operator) :
    Leaves (items.mapM step >>= join connective) (∃ item ∈ items, left item) := by
  intro p found
  obtain ⟨ps, yields, joined⟩ := bind_eq_ok_iff.mp found
  rw [holdsPattern_join joined]
  exact exists_mem_iff_of_mapM yields each

theorem leaves_ordering {op : Operator} (ordering : op.isOrdering = true) {e bound : Expr}
    {first : Prop} (ofSubject : e.Leaves first) :
    Leaves (apply op [e, bound]) (first ∨ bound.HoldsPattern) := by
  intro p applied
  have refuses : refusesTruth .boolean op = true := by simp [refusesTruth, ordering]
  have read : op.isMembership = false := by cases op <;> first | rfl | cases ordering
  obtain ⟨checked, _⟩ := apply_eq_ok_iff.mp applied
  have scalar := (checkOperands_eq_ok_iff.mp checked).1 refuses bound (by simp)
  exact leaves_apply_read read ofSubject
    (Expr.leaves_of_plain (Expr.isSpecifier_of_isBooleanTyped scalar) Iff.rfl) p applied

theorem leaves_between {e low high : Expr} {first : Prop} (ofSubject : e.Leaves first) :
    Leaves (between e low high) (first ∨ low.HoldsPattern ∨ high.HoldsPattern) := by
  intro p found
  simp only [between_eq, bind_eq_ok_iff] at found
  obtain ⟨lower, least, upper, greatest, joined⟩ := found
  have plain : ∀ arg ∈ Operator.and.read [lower.toExpr, upper.toExpr], arg.isSpecifier = false := by
    simp [Operator.read, Operator.isMembership, toExpr, Expr.isSpecifier]
  rw [holdsPattern_apply_plain plain joined]
  simp only [AnyPattern, List.mem_cons, List.not_mem_nil, or_false, exists_eq_or_imp,
    exists_eq_left, leaves_ordering rfl ofSubject lower least,
    leaves_ordering rfl ofSubject upper greatest]
  tauto

theorem isMembership_operator (regex caseInsensitive : Bool) :
    (Pattern.operator regex caseInsensitive).isMembership = false := by
  cases regex <;> cases caseInsensitive <;> rfl

theorem leaves_like {α : Type} {subject : Expr} {items : List α} {candidate : α → Expr}
    {caseInsensitive : Bool} {first : Prop} {second : α → Prop}
    (ofSubject : (matchText subject).Leaves first)
    (each : ∀ item ∈ items, (matchText (candidate item)).Leaves (second item)) :
    Leaves (like subject (items.map candidate) caseInsensitive)
      (first ∨ ∃ item ∈ items, second item) := by
  rw [like_eq]
  split
  · intro p found
    cases found
  · rename_i some
    have several : items ≠ [] := by simpa using some
    rw [List.mapM_map]
    refine leaves_congr ?_ (leaves_join (fun item member => leaves_apply_read
      (isMembership_operator ..) ofSubject (each item member)) .or)
    simp only [and_or_left, exists_or, exists_and_right, List.exists_mem_of_ne_nil _ several,
      true_and]

theorem leaves_negatedIf {step : Except Error Predicate} {negated : Bool} {left : Prop}
    (h : Leaves step left) :
    Leaves (do
      let p ← step
      if negated then p.opposite else .ok p) left := by
  intro q found
  obtain ⟨p, made, found⟩ := bind_eq_ok_iff.mp found
  split at found
  · rw [holdsPattern_opposite found, h p made]
  · cases found
    exact h q made

theorem leaves_ofNamed_between {column v : Expr} {negated : Bool} {first : Prop}
    (ofColumn : column.Leaves first) :
    Leaves (ofNamed column (.between negated) v) (first ∨ v.HoldsPattern) := by
  simp only [ofNamed]
  split
  · rename_i low high
    have items : (Expr.list [low, high]).HoldsPattern ↔ low.HoldsPattern ∨ high.HoldsPattern := by
      simp [Expr.holdsPattern_iff, Expr.children]
    rw [items]
    exact leaves_negatedIf (leaves_between ofColumn)
  · intro p found
    cases found

theorem ofNamed_matching (column v : Expr) (caseInsensitive negated : Bool) :
    ofNamed column (.matching caseInsensitive negated) v = (do
      let p ← like column v.candidates caseInsensitive
      if negated then p.opposite else .ok p) := by
  cases v <;> rfl

end Predicate

/-! Specifiers. -/

theorem Expr.leaves_of_ofSpecifier? {α : Type} {e : Expr} {kind : ConditionsKind} {items : List α}
    {pair : α → Expr × Expr} {left : α → Prop}
    (specifier : Conditions.ofSpecifier? e = some ⟨kind, items.map pair⟩)
    (each : ∀ item ∈ items,
      Predicate.Leaves (Predicate.ofPair (pair item).1 (pair item).2) (left item)) :
    e.Leaves (∃ item ∈ items, left item) := by
  intro resolved found
  rw [resolve_of_ofSpecifier? specifier, predicates_eq_mapM, List.mapM_map] at found
  simp only [bind_eq_ok_iff, pure_eq_ok_iff] at found
  obtain ⟨ps, yields, p, joined, rfl⟩ := found
  exact Predicate.leaves_join each .and p (bind_eq_ok_iff.mpr ⟨ps, yields, joined⟩)

namespace Predicate

theorem leaves_ofConditions {α : Type} {kind : ConditionsKind} {items : List α}
    {pair : α → Expr × Expr} {left : α → Prop}
    (settled : ∀ item ∈ items, (pair item).1.Throughout Expr.isSettled ∧
      (pair item).2.Throughout Expr.isSettled)
    (each : ∀ item ∈ items, Leaves (ofPair (pair item).1 (pair item).2) (left item))
    (connective : Operator) (negate : Bool) :
    Leaves (ofConditions ⟨kind, items.map pair⟩ connective negate)
      (∃ item ∈ items, left item) := by
  rw [ofConditions, List.mapM_map]
  refine leaves_join ?_ connective
  intro item member q found
  obtain ⟨p, made, found⟩ := bind_eq_ok_iff.mp found
  split at found
  · have whole := settled_closed.synthesisInvariant.of_ofPair (settled item member).1
      (settled item member).2 made
    rw [holdsPattern_inverted whole found, each item member p made]
  · cases found
    exact each item member q made

end Predicate

end SqlExpr
