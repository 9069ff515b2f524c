import SqlExpr.Clause.Case
import SqlExpr.Proofs.Construction
import SqlExpr.Proofs.Synthesis

/-!
CASE without its subject. Each test becomes the predicate that it makes under the subject as column. For
most tests that is the comparison by equality, so that the same branch is selected; lists, subqueries,
conditions and patterns ask for a membership test, for operators or for a match instead.
-/

namespace SqlExpr

namespace Interpretation

variable {α : Type} (I : Interpretation α)

/-- The value of a test, compared with the subject if there is one. -/
def tested : Option Expr → Expr → α
  | some subject, test => I.operate .eq [subject, test]
  | none, test => I.value test

/-- The first branch whose test holds. -/
def selected (holds : α → Bool) (subject : Option Expr) (branches : List (Expr × Expr)) :
    Option Nat :=
  branches.findIdx? fun branch => holds (I.tested subject branch.1)

theorem value_comparison {op : Operator} {args : List Expr} {p : Predicate}
    (few : op.arity ≠ .many) (applied : Predicate.apply op args = .ok p) :
    I.value p.toExpr = I.operate op args := by
  obtain ⟨_, settled, found, rfl⟩ := Predicate.apply_eq_ok_iff.mp applied
  rw [Predicate.toExpr, I.value_complex, Operator.arrange_of_not_many few, I.operate_settled found]

theorem selected_congr {holds : α → Bool} {subject subject' : Option Expr}
    {branches branches' : List (Expr × Expr)}
    (each : List.Forall₂ (fun branch branch' =>
      I.tested subject branch.1 = I.tested subject' branch'.1) branches branches') :
    I.selected holds subject branches = I.selected holds subject' branches' := by
  rw [selected, selected]
  induction each with
  | nil => rfl
  | cons same _ ih => rw [List.findIdx?_cons, List.findIdx?_cons, same, ih]

end Interpretation

namespace Expr

/-- NULL, TRUE and FALSE, which are compared with IS. -/
def comparesWithIs : Expr → Bool
  | value v => v.isBooleanLike
  | isConstant _ | isNotConstant _ => true
  | _ => false

/-- What stands for a membership test, for operators or for a match under a column. -/
def asksForOperator : Expr → Bool
  | list _ | subquery _ | conditions .. | pattern _ => true
  | _ => false

theorem comparison?_of_plain {test : Expr} (noTruth : test.comparesWithIs = false)
    (plain : test.asksForOperator = false) : test.comparison? = some (.eq, test) := by
  cases test
  case value v =>
    have other : ¬v.isBooleanLike = true := by simpa [comparesWithIs] using noTruth
    rw [comparison?, if_neg other]
  case isConstant | isNotConstant => cases noTruth
  case list | subquery | conditions | pattern => cases plain
  all_goals rfl

/-- What becomes of a branch: the test is the predicate of the subject and the test, which compares the
two where nothing else is asked for. -/
structure Folds (subject : Expr) (branch branch' : Expr × Expr) : Prop where
  result : branch'.2 = branch.2
  test : ∃ p, Predicate.ofPair subject branch.1 = .ok p ∧ branch'.1 = p.toExpr ∧
    (branch.1.comparesWithIs = false → branch.1.asksForOperator = false →
      Predicate.apply .eq [subject, branch.1] = .ok p)

theorem forall₂_folds {subject : Expr} {branches branches' : List (Expr × Expr)}
    (found : mergedBranches subject branches = .ok branches') :
    List.Forall₂ (Folds subject) branches branches' := by
  refine (mapM_eq_ok_iff.mp found).imp fun branch branch' step => ?_
  obtain ⟨p, made, same⟩ := bind_eq_ok_iff.mp step
  cases same
  refine ⟨rfl, p, made, rfl, fun noTruth plain => ?_⟩
  rwa [Predicate.ofPair_of_comparison (comparison?_of_plain noTruth plain)] at made

theorem Folds.tested {subject : Expr} {branch branch' : Expr × Expr}
    (h : Folds subject branch branch') (noTruth : branch.1.comparesWithIs = false)
    (plain : branch.1.asksForOperator = false) {α : Type} (I : Interpretation α) :
    I.tested (some subject) branch.1 = I.tested none branch'.1 := by
  obtain ⟨p, _, same, compares⟩ := h.test
  rw [Interpretation.tested, Interpretation.tested, same,
    I.value_comparison (by decide) (compares noTruth plain)]

/-- A CASE whose subject is folded in keeps its results and what it gives otherwise, and folding again
changes nothing. If all tests are compared by equality, the same branch is selected under every
interpretation. -/
theorem mergedCase_selects {branches : List (Expr × Expr)} {otherwise subject merged : Expr}
    (found : mergedCase branches otherwise (some subject) = .ok merged) :
    ∃ branches', merged = caseWhen branches' otherwise none ∧
      mergedCase branches' otherwise none = .ok merged ∧
      List.Forall₂ (Folds subject) branches branches' ∧
      ((∀ branch ∈ branches, branch.1.comparesWithIs = false) →
        (∀ branch ∈ branches, branch.1.asksForOperator = false) →
          ∀ (α : Type) (I : Interpretation α) (holds : α → Bool),
            I.selected holds (some subject) branches = I.selected holds none branches') := by
  obtain ⟨branches', folded, same⟩ := bind_eq_ok_iff.mp found
  cases same
  have each := forall₂_folds folded
  refine ⟨branches', rfl, rfl, each, fun noTruth plain α I holds => ?_⟩
  have plainly : ∀ branch ∈ branches,
      branch.1.comparesWithIs = false ∧ branch.1.asksForOperator = false :=
    fun branch member => ⟨noTruth branch member, plain branch member⟩
  refine I.selected_congr (((List.forall₂_and_left _ _).mpr ⟨plainly, each⟩).imp ?_)
  rintro branch branch' ⟨⟨noTruth, plain⟩, folds⟩
  exact folds.tested noTruth plain I

theorem mergedCase_selects_column :
    ∃ branches', mergedCase [(.value (.integer 1), .value (.string "one")),
          (.identifier "y", .value (.string "same"))] (.value .null) (some (.identifier "x")) =
        .ok (caseWhen branches' (.value .null) none) ∧
      ∀ (α : Type) (I : Interpretation α) (holds : α → Bool),
        I.selected holds (some (.identifier "x")) [(.value (.integer 1), .value (.string "one")),
            (.identifier "y", .value (.string "same"))] =
          I.selected holds none branches' := by
  have found : mergedCase [(.value (.integer 1), .value (.string "one")),
        (.identifier "y", .value (.string "same"))] (.value .null) (some (.identifier "x")) =
      .ok (caseWhen [
        (.complex .boolean .eq [.identifier "x", .value (.integer 1)], .value (.string "one")),
        (.complex .boolean .eq [.identifier "x", .identifier "y"], .value (.string "same"))]
        (.value .null) none) := rfl
  obtain ⟨branches', same, _, _, selects⟩ := mergedCase_selects found
  cases same
  exact ⟨_, found, selects (by simp [comparesWithIs, Value.isBooleanLike])
    (by simp [asksForOperator])⟩

/-- A list that is compared with the subject becomes a membership test, which another branch can pass. -/
theorem not_mergedCase_selects_list :
    ¬ ∀ (branches : List (Expr × Expr)) (otherwise subject merged : Expr),
      (∀ branch ∈ branches, branch.1.comparesWithIs = false) →
      mergedCase branches otherwise (some subject) = .ok merged →
      ∃ branches', merged = caseWhen branches' otherwise none ∧
        ∀ (α : Type) (I : Interpretation α) (holds : α → Bool),
          I.selected holds (some subject) branches = I.selected holds none branches' := by
  intro agree
  -- Only what is compared by equality is true.
  let byEquality : Interpretation Bool :=
    ⟨fun _ => false, fun _ first _ => first, fun op _ _ => op = .eq, fun _ _ _ _ _ => rfl⟩
  have found : mergedCase [(.list [.value (.integer 1), .value (.integer 2)],
        .value (.integer 1))] (.value (.integer 0)) (some (.identifier "x")) =
      .ok (caseWhen [(.complex .boolean .isIn [.identifier "x",
          .list [.value (.integer 1), .value (.integer 2)]], .value (.integer 1))]
        (.value (.integer 0)) none) := rfl
  obtain ⟨branches', same, selects⟩ := agree _ _ _ _ (by simp [comparesWithIs]) found
  cases same
  have differ := selects Bool byEquality id
  rw [Interpretation.selected, Interpretation.selected, List.findIdx?_cons, List.findIdx?_cons,
    Interpretation.tested, Interpretation.tested, Interpretation.value_complex] at differ
  cases differ

end Expr

end SqlExpr
