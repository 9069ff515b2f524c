import SqlExpr.Predicate.Negation
import SqlExpr.Proofs.Synthesis

/-!
What the application of operators preserves, synthesis preserves: if a property of expressions passes
to the parts that synthesis takes from a specifier and from operands to the nodes made of them, then
the predicates of a specifier have it.
-/

namespace SqlExpr

namespace Expr

/-- The expression and what it stands for as an operand are good. -/
def Resolves (good : Expr → Prop) (e : Expr) : Prop :=
  good e ∧ ∀ resolved, e.resolve = .ok resolved → good resolved

theorem Resolves.of_plain {good : Expr → Prop} {e : Expr} (plain : e.isSpecifier = false)
    (held : good e) : e.Resolves good := by
  refine ⟨held, ?_⟩
  intro resolved found
  rw [resolve_of_isSpecifier_eq_false plain] at found
  cases found
  exact held

theorem exists_ofSpecifier? {e : Expr} (specifier : e.isSpecifier = true) :
    ∃ c, Conditions.ofSpecifier? e = some c := by
  cases e <;> simp_all [isSpecifier, Conditions.ofSpecifier?]

theorem isSpecifier_of_ofSpecifier? {e : Expr} {c : Conditions}
    (found : Conditions.ofSpecifier? e = some c) : e.isSpecifier = true := by
  cases e <;> simp_all [isSpecifier, Conditions.ofSpecifier?]

theorem resolve_of_ofSpecifier? {e : Expr} {c : Conditions}
    (found : Conditions.ofSpecifier? e = some c) :
    e.resolve = (do return (← Predicate.join .and (← predicates c.pairs)).toExpr) := by
  cases e <;> simp only [Conditions.ofSpecifier?, reduceCtorEq, Option.some.injEq] at found
  case conditions kind pairs =>
    subst found
    rw [resolve]
  case list items =>
    split at found
    · rename_i pairs
      cases found
      rw [resolve, if_pos pairs, itemPredicates_eq]
    · cases found

theorem isSpecifier_of_resolve {e resolved : Expr} (found : e.resolve = .ok resolved) :
    resolved.isSpecifier = false := by
  cases specifier : e.isSpecifier with
  | false =>
    rw [resolve_of_isSpecifier_eq_false specifier] at found
    cases found
    exact specifier
  | true =>
    obtain ⟨c, pairs⟩ := exists_ofSpecifier? specifier
    simp only [resolve_of_ofSpecifier? pairs, bind_eq_ok_iff, pure_eq_ok_iff] at found
    obtain ⟨_, _, p, _, rfl⟩ := found
    rfl

end Expr

theorem Conditions.of_ofSpecifier? {e : Expr} {c : Conditions} (found : ofSpecifier? e = some c) :
    (∃ kind, e = .conditions kind c.pairs) ∨
      ∃ items, e = .list items ∧ ∀ side ∈ Expr.sides c.pairs,
        ∃ pair, .list pair ∈ items ∧ side ∈ pair := by
  cases e <;> simp only [ofSpecifier?, reduceCtorEq, Option.some.injEq] at found
  case conditions kind pairs =>
    subst found
    exact .inl ⟨kind, rfl⟩
  case list items =>
    split at found
    · cases found
      refine .inr ⟨items, rfl, ?_⟩
      intro side member
      obtain ⟨pair, inside, which⟩ := Expr.mem_sides.mp member
      obtain ⟨item, inItems, read⟩ := List.mem_filterMap.mp inside
      unfold Expr.pair? at read
      split at read
      · rename_i k v
        cases read
        exact ⟨[k, v], inItems, by simpa using which⟩
      · cases read
    · cases found

/-- A property of expressions that synthesis preserves, with what it asks of the operands that an
operator leaves alone and of whole predicates. -/
structure SynthesisInvariant (good kept : Expr → Prop) (fine : Predicate → Prop) : Prop where
  toExpr : ∀ p, fine p → good p.toExpr
  kept_of_good : ∀ e, good e → kept e
  value : ∀ v, good (.value v)
  items : ∀ items, good (.list items) → ∀ item ∈ items, good item
  pairs : ∀ kind pairs, good (.conditions kind pairs) → ∀ side ∈ Expr.sides pairs, good side
  asList : ∀ pairs, good (.conditions .pairs pairs) → kept (Conditions.asList ⟨.pairs, pairs⟩)
  columns : ∀ key, good key → ∀ column ∈ key.columns, good column
  qualify : ∀ table column, good table → good column → good (.qualify table column)
  apply : ∀ op args p, args.length ≠ 1 → (∀ arg ∈ op.read args, arg.Resolves good) →
    (∀ arg ∈ op.kept args, kept arg) → Predicate.apply op args = .ok p → fine p
  opposite : ∀ p q, fine p → p.opposite = .ok q → fine q

namespace SynthesisInvariant

variable {good kept : Expr → Prop} {fine : Predicate → Prop}
  (inv : SynthesisInvariant good kept fine)

include inv

theorem apply_two {op : Operator} {left right : Expr} {p : Predicate}
    (first : left.Resolves good) (second : right.Resolves good)
    (applied : Predicate.apply op [left, right] = .ok p) : fine p := by
  have every : ∀ arg ∈ [left, right], arg.Resolves good := by simp [first, second]
  refine inv.apply op [left, right] p (by simp) ?_ ?_ applied
  · intro arg member
    exact every arg (Operator.mem_of_mem_read member)
  · intro arg member
    exact inv.kept_of_good arg (every arg (Operator.mem_of_mem_kept member)).1

theorem resolves_toExpr {p : Predicate} (h : fine p) : p.toExpr.Resolves good :=
  .of_plain rfl (inv.toExpr p h)

theorem join {connective : Operator} {ps : List Predicate} {p : Predicate}
    (every : ∀ q ∈ ps, fine q) (joined : Predicate.join connective ps = .ok p) : fine p := by
  by_cases single : ps.length = 1
  · obtain ⟨q, rfl⟩ := List.length_eq_one_iff.mp single
    cases joined
    exact every p (by simp)
  · rw [Predicate.join_of_length_ne_one single] at joined
    have operands : ∀ arg ∈ ps.map Predicate.toExpr, arg.Resolves good := by
      rw [List.forall_mem_map]
      intro q member
      exact inv.resolves_toExpr (every q member)
    refine inv.apply connective _ p (by simpa using single) ?_ ?_ joined
    · intro arg member
      exact operands arg (Operator.mem_of_mem_read member)
    · intro arg member
      exact inv.kept_of_good arg (operands arg (Operator.mem_of_mem_kept member)).1

theorem between {e low high : Expr} {p : Predicate} (subject : e.Resolves good)
    (lower : low.Resolves good) (upper : high.Resolves good)
    (found : Predicate.between e low high = .ok p) : fine p := by
  simp only [Predicate.between_eq, bind_eq_ok_iff] at found
  obtain ⟨least, hl, greatest, hg, joined⟩ := found
  exact inv.apply_two (inv.resolves_toExpr (inv.apply_two subject lower hl))
    (inv.resolves_toExpr (inv.apply_two subject upper hg)) joined

theorem resolves_matchText {e : Expr} (h : e.Resolves good) :
    (Predicate.matchText e).Resolves good := by
  unfold Predicate.matchText
  split
  · exact .of_plain rfl (inv.value _)
  · exact h

theorem like {subject : Expr} {candidates : List Expr} {caseInsensitive : Bool} {p : Predicate}
    (left : subject.Resolves good) (every : ∀ candidate ∈ candidates, candidate.Resolves good)
    (found : Predicate.like subject candidates caseInsensitive = .ok p) : fine p := by
  rw [Predicate.like_eq] at found
  split at found
  · cases found
  · rw [bind_eq_ok_iff] at found
    obtain ⟨ps, each, joined⟩ := found
    refine inv.join (forall_of_mapM each ?_) joined
    intro candidate member q applied
    exact inv.apply_two (inv.resolves_matchText left)
      (inv.resolves_matchText (every candidate member)) applied

theorem negatedIf {p q : Predicate} {negated : Bool} (h : fine p)
    (found : (if negated then p.opposite else .ok p) = .ok q) : fine q := by
  split at found
  · exact inv.opposite p q h found
  · cases found
    exact h

theorem ofNamed {column v : Expr} {named : NamedOperator} {p : Predicate}
    (left : column.Resolves good) (right : v.Resolves good)
    (items : ∀ list, v = .list list → ∀ item ∈ list, item.Resolves good)
    (found : Predicate.ofNamed column named v = .ok p) : fine p := by
  unfold Predicate.ofNamed at found
  split at found
  · split at found
    · rename_i low high
      rw [bind_eq_ok_iff] at found
      obtain ⟨q, between, negated⟩ := found
      have each := items [low, high] rfl
      exact inv.negatedIf (inv.between left (each low (by simp)) (each high (by simp)) between)
        negated
    · cases found
  · rw [bind_eq_ok_iff] at found
    obtain ⟨q, matched, negated⟩ := found
    refine inv.negatedIf (inv.like left ?_ matched) negated
    split
    · exact items _ rfl
    · simpa using right
  · exact inv.apply_two left right found

theorem resolves_columns {key : Expr} (h : key.Resolves good) :
    ∀ column ∈ key.columns, column.Resolves good := by
  intro column member
  cases specifier : key.isSpecifier with
  | true =>
    rw [Expr.columns_of_isSpecifier specifier, List.mem_singleton] at member
    rw [member]
    exact h
  | false =>
    exact .of_plain (Expr.isSpecifier_of_mem_columns specifier member)
      (inv.columns key h.1 column member)

omit inv in
/-- What the induction carries from an expression to the specifiers around it. -/
structure Holds (good : Expr → Prop) (fine : Predicate → Prop) (e : Expr) : Prop where
  resolves : good e → e.Resolves good
  operators : ∀ operators, e = .conditions .mapping operators → good e →
    ∀ column : Expr, column.Resolves good →
      ∀ ps, operatorPredicates (.of column) operators = .ok ps → ∀ p ∈ ps, fine p

theorem ofOperators {column v : Expr} {operators : List (Expr × Expr)} {p : Predicate}
    (ih : Holds good fine v) (mapping : v = .conditions .mapping operators) (held : good v)
    (left : column.Resolves good) (found : Predicate.ofOperators column operators = .ok p) :
    fine p := by
  rw [Predicate.ofOperators, bind_eq_ok_iff] at found
  obtain ⟨ps, each, joined⟩ := found
  exact inv.join (ih.operators operators mapping held column left ps each) joined

theorem comparison {v right : Expr} {op : Operator} (held : good v)
    (asked : v.comparison? = some (op, right)) :
    op.isMembership = true ∧ kept right ∨ right.Resolves good := by
  cases v
  case list | subquery =>
    cases asked
    exact .inl ⟨rfl, inv.kept_of_good _ held⟩
  case conditions kind pairs =>
    cases kind <;> cases asked
    exact .inl ⟨rfl, inv.asList pairs held⟩
  case isConstant | isNotConstant =>
    cases asked
    exact .inr (.of_plain rfl (inv.value _))
  case pattern => cases asked
  all_goals
    cases asked
    exact .inr (.of_plain rfl held)

theorem ofPair {k v : Expr} {p : Predicate} (left : k.Resolves good) (held : good v)
    (ih : Holds good fine v) (found : Predicate.ofPair k v = .ok p) : fine p := by
  cases asked : v.comparison? with
  | some comparison =>
    obtain ⟨op, right⟩ := comparison
    rw [Predicate.ofPair_of_comparison asked] at found
    rcases inv.comparison held asked with ⟨membership, alone⟩ | second
    · refine inv.apply op [k, right] p (by simp) ?_ ?_ found
      · simpa [Operator.read, membership] using left
      · simpa [Operator.kept, membership] using alone
    · exact inv.apply_two left second found
  | none =>
    cases v <;> simp only [Expr.comparison?, reduceCtorEq] at asked
    case conditions kind operators =>
      cases kind <;> simp only [reduceCtorEq] at asked
      rw [Predicate.ofPair_mapping, bind_eq_ok_iff] at found
      obtain ⟨ps, each, joined⟩ := found
      refine inv.join (forall_of_mapM each ?_) joined
      intro column member q
      exact inv.ofOperators ih rfl held (inv.resolves_columns left column member)
    case pattern text =>
      rw [Predicate.ofPair_pattern] at found
      refine inv.like left ?_ found
      simpa using Expr.Resolves.of_plain rfl held

theorem ofPairs {pairs : List (Expr × Expr)} {ps : List Predicate}
    (sides : ∀ side ∈ Expr.sides pairs, good side)
    (ih : ∀ side ∈ Expr.sides pairs, Holds good fine side)
    (found : predicates pairs = .ok ps) : ∀ p ∈ ps, fine p := by
  rw [predicates_eq_mapM] at found
  refine forall_of_mapM found ?_
  intro (k, v) member p pair
  have key : k ∈ Expr.sides pairs := Expr.mem_sides.mpr ⟨(k, v), member, .inl rfl⟩
  have held : v ∈ Expr.sides pairs := Expr.mem_sides.mpr ⟨(k, v), member, .inr rfl⟩
  exact inv.ofPair ((ih k key).resolves (sides k key)) (sides v held) (ih v held) pair

theorem ofEntries {entries : List (Expr × Expr)}
    (sides : ∀ side ∈ Expr.sides entries, good side)
    (ih : ∀ side ∈ Expr.sides entries, Holds good fine side ∧
      ∀ child ∈ side.children, Holds good fine child)
    {column : Expr} (left : column.Resolves good) {ps : List Predicate}
    (found : operatorPredicates (.of column) entries = .ok ps) : ∀ p ∈ ps, fine p := by
  induction entries generalizing ps with
  | nil =>
    rw [operatorPredicates] at found
    cases found
    simp
  | cons entry rest tail =>
    obtain ⟨name, v⟩ := entry
    simp only [Expr.sides, List.flatMap_cons, List.mem_append, List.mem_cons, List.not_mem_nil,
      or_false] at sides ih
    have later (ps : List Predicate) (found : operatorPredicates (.of column) rest = .ok ps) :
        ∀ p ∈ ps, fine p :=
      tail (fun side member => sides side (.inr member)) (fun side member => ih side (.inr member))
        found
    have key := sides name (.inl (.inl rfl))
    have held := sides v (.inl (.inr rfl))
    have below := ih v (.inl (.inr rfl))
    by_cases mapping : ∃ inner, v = .conditions .mapping inner
    · obtain ⟨inner, rfl⟩ := mapping
      rw [operatorPredicates_cons_mapping] at found
      simp only [bind_eq_ok_iff, pure_eq_ok_iff] at found
      obtain ⟨each, columns, p, joined, others, found, rfl⟩ := found
      have joined : fine p := by
        refine inv.join (forall_of_mapM columns ?_) joined
        intro sub member q
        have qualified : (Expr.qualify column sub).Resolves good :=
          .of_plain rfl (inv.qualify column sub left.1 (inv.columns name key sub member))
        exact inv.ofOperators below.1 rfl held qualified
      simpa [joined] using later others found
    · rw [operatorPredicates_cons_leaf] at found
      · simp only [bind_eq_ok_iff, pure_eq_ok_iff, Predicate.ofName_eq] at found
        obtain ⟨_, _, p, ⟨named, _, applied⟩, others, found, rfl⟩ := found
        have items (list : List Expr) (same : v = .list list) :
            ∀ item ∈ list, item.Resolves good := by
          subst same
          intro item member
          exact (below.2 item member).resolves (inv.items list held item member)
        have applied : fine p := inv.ofNamed left (below.1.resolves held) items applied
        simpa [applied] using later others found
      · intro inner same
        exact mapping ⟨inner, same⟩

theorem holds (e : Expr) : Holds good fine e := by
  -- The pairs of a list and the items of an operator's value stand two levels below, so the induction
  -- carries the parts along with the expression.
  have both : Holds good fine e ∧ ∀ child ∈ e.children, Holds good fine child := by
    induction e using Expr.childrenInduction with
    | step e ih =>
      refine ⟨⟨?_, ?_⟩, fun child member => (ih child member).1⟩
      · intro held
        cases specifier : e.isSpecifier with
        | false => exact .of_plain specifier held
        | true =>
          refine ⟨held, ?_⟩
          obtain ⟨c, found⟩ := Expr.exists_ofSpecifier? specifier
          simp only [Expr.resolve_of_ofSpecifier? found, bind_eq_ok_iff, pure_eq_ok_iff]
          rintro _ ⟨ps, each, p, joined, rfl⟩
          refine inv.toExpr p (inv.join ?_ joined)
          rcases Conditions.of_ofSpecifier? found with ⟨kind, rfl⟩ | ⟨items, rfl, inside⟩
          · exact inv.ofPairs (inv.pairs _ _ held) (fun side member => (ih side member).1) each
          · have listed (side : Expr) (member : side ∈ Expr.sides c.pairs) :
                good side ∧ Holds good fine side := by
              obtain ⟨pair, inList, inPair⟩ := inside side member
              have whole := inv.items items held (.list pair) inList
              exact ⟨inv.items pair whole side inPair, (ih (.list pair) inList).2 side inPair⟩
            exact inv.ofPairs (fun side member => (listed side member).1)
              (fun side member => (listed side member).2) each
      · rintro operators rfl held column left ps found
        exact inv.ofEntries (inv.pairs _ _ held) ih left found
  exact both.1

theorem resolves {e : Expr} (held : good e) : e.Resolves good :=
  (inv.holds e).resolves held

theorem of_resolve {e resolved : Expr} (held : good e) (found : e.resolve = .ok resolved) :
    good resolved :=
  (inv.resolves held).2 resolved found

theorem of_predicates {pairs : List (Expr × Expr)} {ps : List Predicate}
    (sides : ∀ side ∈ Expr.sides pairs, good side) (found : predicates pairs = .ok ps) :
    ∀ p ∈ ps, fine p :=
  inv.ofPairs sides (fun side _ => inv.holds side) found

theorem of_ofPair {k v : Expr} {p : Predicate} (key : good k) (held : good v)
    (found : Predicate.ofPair k v = .ok p) : fine p :=
  inv.ofPair (inv.resolves key) held (inv.holds v) found

end SynthesisInvariant

end SqlExpr
