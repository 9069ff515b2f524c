import SqlExpr.Predicate.Synthesis

/-!
What synthesis does, said of the functions on expressions: main statements are the equations
`predicates_eq_mapM`, `columnOperands_of`, `operatorPredicates_cons_mapping` and
`operatorPredicates_cons_leaf`.
-/

namespace SqlExpr

theorem Expr.resolve_of_isSpecifier_eq_false {e : Expr} (h : e.isSpecifier = false) :
    e.resolve = .ok e := by
  cases e <;> simp_all [Expr.isSpecifier, Expr.resolve]

theorem Operand.plain_eq_of {e : Expr} (h : e.isSpecifier = false) : plain e = of e := by
  simp [plain, of, Expr.resolve_of_isSpecifier_eq_false h]

theorem operands_eq_map (items : List Expr) : operands items = items.map .of := by
  induction items with
  | nil => simp [operands]
  | cons e rest ih => simp [operands, ih, Operand.of]

theorem predicates_eq_mapM (pairs : List (Expr × Expr)) :
    predicates pairs = pairs.mapM fun (k, v) => Predicate.ofPair k v := by
  induction pairs with
  | nil => rw [predicates]; rfl
  | cons pair rest ih => rw [predicates, ih, List.mapM_cons]; rfl

theorem itemPredicates_eq (items : List Expr) :
    itemPredicates items = predicates (items.filterMap Expr.pair?) := by
  induction items with
  | nil => simp [itemPredicates, predicates]
  | cons e rest ih =>
    unfold itemPredicates
    split
    · simp_all
    · rename_i found
      cases found
      simp [Expr.pair?, predicates, ih]
    · rename_i other found
      cases found
      have none : Expr.pair? e = none := by
        unfold Expr.pair?
        split
        · simp_all
        · rfl
      simp [none, ih]

namespace Expr

theorem columns_of_isSpecifier {e : Expr} (h : e.isSpecifier = true) : e.columns = [e] := by
  cases e <;> simp_all [isSpecifier, columns]

theorem isSpecifier_named (name : String) : (named name).isSpecifier = false := by
  unfold named
  split
  · split <;> rfl
  · rfl

theorem isSpecifier_of_mem_columns {e column : Expr} (h : e.isSpecifier = false)
    (member : column ∈ e.columns) : column.isSpecifier = false := by
  unfold columns at member
  split at member
  · split at member
    · obtain ⟨name, _, rfl⟩ := List.mem_map.mp member
      exact isSpecifier_named name
    · rw [List.mem_singleton.mp member]; rfl
  · split at member
    · obtain ⟨name, _, rfl⟩ := List.mem_map.mp member
      exact isSpecifier_named name
    · rw [List.mem_singleton.mp member]; rfl
  · split at member
    · obtain ⟨name, _, rfl⟩ := List.mem_map.mp member
      rfl
    · rw [List.mem_singleton.mp member]; rfl
  · rw [List.mem_singleton.mp member]; exact h

end Expr

theorem columnOperands_of (k : Expr) : Predicate.columnOperands (.of k) = k.columns.map .of := by
  unfold Predicate.columnOperands
  cases h : k.isSpecifier with
  | true => simp [Operand.of, h, Expr.columns_of_isSpecifier h]
  | false =>
    simp only [Operand.of, h, Bool.false_eq_true, if_false, List.map_inj_left]
    exact fun column member => Operand.plain_eq_of (Expr.isSpecifier_of_mem_columns h member)

theorem listedOperands_list (items : List Expr) :
    listedOperands (.list items) = some (items.map .of) := by
  simp [listedOperands, operands_eq_map]

theorem operatorPredicates_cons_mapping (column name : Expr) (inner rest : List (Expr × Expr)) :
    operatorPredicates (.of column) ((name, .conditions .mapping inner) :: rest) = (do
      let below ← name.columns.mapM fun sub => Predicate.ofOperators (.qualify column sub) inner
      let p ← Predicate.join .and below
      let ps ← operatorPredicates (.of column) rest
      return p :: ps) := by
  rw [operatorPredicates]
  rfl

theorem operatorPredicates_cons_leaf (column name v : Expr) (rest : List (Expr × Expr))
    (leaf : ∀ inner, v ≠ .conditions .mapping inner) :
    operatorPredicates (.of column) ((name, v) :: rest) = (do
      let spelled ← NamedOperator.nameOf name
      let p ← Predicate.ofName column spelled v
      let ps ← operatorPredicates (.of column) rest
      return p :: ps) := by
  rw [operatorPredicates]
  · simp only [Predicate.ofName, Operand.of, bind_assoc]
  · exact leaf

end SqlExpr
