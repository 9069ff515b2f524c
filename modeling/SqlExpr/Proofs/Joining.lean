import SqlExpr.Proofs.DeMorgan

/-!
Predicates that are joined already: how predicates are grouped before one connective joins them makes
no difference.
-/

namespace SqlExpr

theorem length_le_length_flatten {α : Type} {groups : List (List α)}
    (filled : ∀ group ∈ groups, group ≠ []) : groups.length ≤ groups.flatten.length := by
  induction groups with
  | nil => simp
  | cons group rest ih =>
    have here := List.length_pos_of_ne_nil (filled group (by simp))
    have later := ih fun other member => filled other (by simp [member])
    simp only [List.length_cons, List.flatten_cons, List.length_append]
    omega

namespace Predicate

theorem mapM_single_join {α : Type} (op : Operator) (step : α → Except Error Predicate) (item : α) :
    ([item].mapM step >>= join op) = step item := by
  cases found : step item <;> simp [found, join, pure, Except.pure, bind, Except.bind]

theorem forall₂_join_singles (op : Operator) (ps : List Predicate) :
    List.Forall₂ (join op · = .ok ·) (ps.map ([·])) ps := by
  induction ps with
  | nil => exact .nil
  | cons p rest ih => exact .cons rfl ih

variable {op : Operator} (associative : op.isAssociative = true)

include associative

theorem ne_nil_of_join {ps : List Predicate} {p : Predicate} (joined : join op ps = .ok p) :
    ps ≠ [] :=
  (exists_join_iff associative).mp ⟨p, joined⟩

/-- Whether predicates are joined or one of them stays alone, the operands are what they contribute. -/
theorem spliced_join {ps : List Predicate} {p : Predicate} (joined : join op ps = .ok p) :
    spliced op true p.toExpr = ps.flatMap fun q => spliced op true q.toExpr := by
  by_cases single : ps.length = 1
  · obtain ⟨q, rfl⟩ := List.length_eq_one_iff.mp single
    cases joined
    simp
  · obtain ⟨_, rfl⟩ := (join_associative_iff associative single).mp joined
    exact spliced_same (Operator.many_of_isAssociative associative) .boolean _

theorem flatMap_spliced_join {groups : List (List Predicate)} {ps : List Predicate}
    (each : List.Forall₂ (join op · = .ok ·) groups ps) :
    (ps.flatMap fun p => spliced op true p.toExpr) =
      groups.flatten.flatMap fun p => spliced op true p.toExpr := by
  induction each with
  | nil => rfl
  | cons head _ ih =>
    rw [List.flatMap_cons, List.flatten_cons, List.flatMap_append, spliced_join associative head, ih]

theorem groups_ne_nil {groups : List (List Predicate)} {ps : List Predicate}
    (each : List.Forall₂ (join op · = .ok ·) groups ps) : ∀ group ∈ groups, group ≠ [] := by
  induction each with
  | nil => simp
  | cons head _ ih =>
    rw [List.forall_mem_cons]
    exact ⟨ne_nil_of_join associative head, ih⟩

theorem exists_joins {groups : List (List Predicate)} (filled : ∀ group ∈ groups, group ≠ []) :
    ∃ ps, List.Forall₂ (join op · = .ok ·) groups ps := by
  induction groups with
  | nil => exact ⟨[], .nil⟩
  | cons group rest ih =>
    rw [List.forall_mem_cons] at filled
    obtain ⟨p, head⟩ := (exists_join_iff associative).mpr filled.1
    obtain ⟨ps, tail⟩ := ih filled.2
    exact ⟨p :: ps, .cons head tail⟩

theorem join_flatten {groups : List (List Predicate)} {ps : List Predicate}
    (each : List.Forall₂ (join op · = .ok ·) groups ps) :
    join op ps = join op groups.flatten := by
  have same := flatMap_spliced_join associative each
  have longer := length_le_length_flatten (groups_ne_nil associative each)
  have length := each.length_eq
  by_cases single : ps.length = 1
  · -- One group is joined as it stands.
    obtain ⟨p, rfl⟩ := List.length_eq_one_iff.mp single
    obtain ⟨group, rfl⟩ := List.length_eq_one_iff.mp (length.trans single)
    have joined : join op group = .ok p := by simpa using each
    simpa [join] using joined.symm
  · by_cases none : ps = []
    · subst none
      cases each
      rfl
    · have several : 1 < ps.length := by
        have positive := List.length_pos_of_ne_nil none
        omega
      have nonempty : groups.flatten ≠ [] := List.ne_nil_of_length_pos (by omega)
      have many : groups.flatten.length ≠ 1 := by omega
      have left := (join_associative_iff associative single).mpr ⟨none, rfl⟩
      have right := (join_associative_iff associative many).mpr ⟨nonempty, rfl⟩
      rw [left, right, same]

theorem join_among {group : List Predicate} {p : Predicate} (joined : join op group = .ok p)
    (before after : List Predicate) :
    join op (before ++ p :: after) = join op (before ++ (group ++ after)) := by
  have each : List.Forall₂ (join op · = .ok ·)
      (before.map ([·]) ++ group :: after.map ([·])) (before ++ p :: after) :=
    List.rel_append (forall₂_join_singles op before) (.cons joined (forall₂_join_singles op after))
  have alone (ps : List Predicate) : (ps.map ([·])).flatten = ps := by
    induction ps with
    | nil => rfl
    | cons p rest ih => simp [ih]
  rw [join_flatten associative each, List.flatten_append, List.flatten_cons, alone, alone]

end Predicate

end SqlExpr
