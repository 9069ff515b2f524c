import SqlExpr.Proofs.Joining

/-!
Conditions that follow one another: their predicate is the connective on the predicate of the former
and the predicate of the latter, whether these are joined from several conditions or are a single one.
-/

namespace SqlExpr.Predicate

def ofCondition (negate : Bool) (condition : Expr × Expr) : Except Error Predicate := do
  let p ← ofPair condition.1 condition.2
  if negate then p.inverted else .ok p

theorem ofConditions_eq_bind (c : Conditions) (connective : Operator) (negate : Bool) :
    ofConditions c connective negate = c.pairs.mapM (ofCondition negate) >>= join connective :=
  rfl

section Regrouping

variable {op : Operator} (associative : op.isAssociative = true)

include associative

theorem join_append {first second : List Predicate} {p q : Predicate} (former : join op first = .ok p)
    (latter : join op second = .ok q) :
    join op (first ++ second) = apply op [p.toExpr, q.toExpr] := by
  have each : List.Forall₂ (join op · = .ok ·) [first, second] [p, q] :=
    .cons former (.cons latter .nil)
  calc join op (first ++ second)
      = join op [first, second].flatten := by simp
    _ = join op [p, q] := (join_flatten associative each).symm
    _ = apply op [p.toExpr, q.toExpr] := join_of_length_ne_one (by simp)

theorem exists_mapM_join_iff {α : Type} {step : α → Except Error Predicate} {items : List α}
    (some : items ≠ []) :
    (∃ p, items.mapM step >>= join op = .ok p) ↔ ∀ item ∈ items, ∃ p, step item = .ok p := by
  rw [← exists_mapM_iff]
  simp only [bind_eq_ok_iff]
  constructor
  · rintro ⟨p, ps, found, _⟩
    exact ⟨ps, found⟩
  · rintro ⟨ps, found⟩
    obtain ⟨p, joined⟩ := (exists_join_iff associative).mpr (ne_nil_of_mapM found some)
    exact ⟨p, ps, found, joined⟩

theorem mapM_append_join {α : Type} {step : α → Except Error Predicate} {first second : List α}
    (some : first ≠ []) (some' : second ≠ []) :
    (first ++ second).mapM step >>= join op = (do
      let p ← first.mapM step >>= join op
      let q ← second.mapM step >>= join op
      apply op [p.toExpr, q.toExpr]) := by
  simp only [List.mapM_append]
  cases former : first.mapM step with
  | error failure => rfl
  | ok ps =>
    obtain ⟨p, joined⟩ := (exists_join_iff associative).mpr (ne_nil_of_mapM former some)
    cases latter : second.mapM step with
    | error failure => simp [bind, Except.bind, joined]
    | ok qs =>
      obtain ⟨q, joined'⟩ := (exists_join_iff associative).mpr (ne_nil_of_mapM latter some')
      have whole := join_append associative joined joined'
      simp [bind, Except.bind, pure, Except.pure, joined, joined', whole]

theorem exists_ofConditions_iff {pairs : List (Expr × Expr)} (some : pairs ≠ [])
    (kind : ConditionsKind) (negate : Bool) :
    (∃ p, ofConditions ⟨kind, pairs⟩ op negate = .ok p) ↔
      ∀ condition ∈ pairs, ∃ p, ofCondition negate condition = .ok p := by
  simp only [ofConditions_eq_bind]
  exact exists_mapM_join_iff associative some

theorem ofConditions_append {first second : List (Expr × Expr)} (some : first ≠ [])
    (some' : second ≠ []) (kind : ConditionsKind) (negate : Bool) :
    ofConditions ⟨kind, first ++ second⟩ op negate = (do
      let p ← ofConditions ⟨kind, first⟩ op negate
      let q ← ofConditions ⟨kind, second⟩ op negate
      apply op [p.toExpr, q.toExpr]) := by
  simp only [ofConditions_eq_bind]
  exact mapM_append_join associative some some'

/-- Two lists of conditions in one have a predicate exactly if both have one, and it is the connective
on the two; the first failure of the former, or else of the latter, is the failure of the whole. -/
theorem ofConditions_concatenated {first second : List (Expr × Expr)} (some : first ≠ [])
    (some' : second ≠ []) (negate : Bool) :
    ((∃ p, ofConditions ⟨.pairs, first ++ second⟩ op negate = .ok p) ↔
        (∃ p, ofConditions ⟨.pairs, first⟩ op negate = .ok p) ∧
          ∃ q, ofConditions ⟨.pairs, second⟩ op negate = .ok q) ∧
      ofConditions ⟨.pairs, first ++ second⟩ op negate = (do
        let p ← ofConditions ⟨.pairs, first⟩ op negate
        let q ← ofConditions ⟨.pairs, second⟩ op negate
        apply op [p.toExpr, q.toExpr]) := by
  refine ⟨?_, ofConditions_append associative some some' .pairs negate⟩
  rw [exists_ofConditions_iff associative (by simp [some]), exists_ofConditions_iff associative some,
    exists_ofConditions_iff associative some', List.forall_mem_append]

end Regrouping

theorem ofConditions_concatenated_bounded :
    ofConditions ⟨.pairs, [(.identifier "a", .conditions .mapping [(.identifier "between",
          .list [.value (.integer 1), .value (.integer 9)])])] ++
        [(.identifier "b", .value .null), (.identifier "c", .value (.integer 1))]⟩ .or true =
      .ok ⟨.or, [
        .complex .boolean .lt [.identifier "a", .value (.integer 1)],
        .complex .boolean .gt [.identifier "a", .value (.integer 9)],
        .complex .boolean .isNot [.identifier "b", .value .null],
        .complex .boolean .neq [.identifier "c", .value (.integer 1)]]⟩ := by
  rw [(ofConditions_concatenated rfl (by simp) (by simp) true).2]
  rfl

end SqlExpr.Predicate
