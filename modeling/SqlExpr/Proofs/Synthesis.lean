import SqlExpr.Proofs.Assembly
import SqlExpr.Proofs.Children

/-!
Synthesis said of expressions: each predicate is an operator applied to the key and to what the value
gives, or a connective applied to such predicates. Whatever the application of operators preserves,
synthesis preserves.
-/

namespace SqlExpr

namespace Predicate

theorem toOperand_eq_of (p : Predicate) : p.toOperand = .of p.toExpr :=
  Operand.plain_eq_of rfl

theorem assemble_eq_apply {op : Operator} {operands : List Operand}
    (resolved : ∀ o ∈ op.read operands, o.resolved.get = o.given.resolve) :
    assemble op operands = apply op (operands.map (·.given)) := by
  have same : SqlExpr.assemble .boolean op operands =
      SqlExpr.assemble .boolean op ((operands.map (·.given)).map .of) := by
    apply assemble_congr
    · simp [Function.comp_def]
    · rw [Operator.read_map, Operator.read_map, List.map_map, List.map_map]
      exact List.map_congr_left resolved
  simp only [assemble, apply, same]

theorem join_of_length_ne_one {connective : Operator} {ps : List Predicate}
    (several : ps.length ≠ 1) : join connective ps = apply connective (ps.map toExpr) := by
  have operands : ps.map toOperand = (ps.map toExpr).map .of := by
    simp [toOperand_eq_of]
  unfold join
  split
  · simp at several
  · rw [operands]
    rfl

/-! The predicate of a pair. -/

theorem ofPair_mapping (k : Expr) (operators : List (Expr × Expr)) :
    ofPair k (.conditions .mapping operators) = (do
      join .and (← k.columns.mapM (ofOperators · operators))) := by
  rw [ofPair, pairPredicate, columnOperands_of, List.mapM_map]
  rfl

theorem ofPair_pattern (k : Expr) (p : Pattern) :
    ofPair k (.pattern p) = like k [.pattern p] false := by
  rw [ofPair, pairPredicate, like, List.map_singleton, Operand.plain_eq_of rfl]

end Predicate

theorem Expr.mem_columns {key column : Expr} (member : column ∈ key.columns) :
    column = key ∨ (∃ name, column = named name) ∨
      ∃ table names name, key = qualified table names ∧ column = qualify table (identifier name) := by
  unfold columns at member
  split at member
  · split at member
    · obtain ⟨name, _, rfl⟩ := List.mem_map.mp member
      exact .inr (.inl ⟨name, rfl⟩)
    · exact .inl (List.mem_singleton.mp member)
  · split at member
    · obtain ⟨name, _, rfl⟩ := List.mem_map.mp member
      exact .inr (.inl ⟨name, rfl⟩)
    · exact .inl (List.mem_singleton.mp member)
  · split at member
    · obtain ⟨name, _, rfl⟩ := List.mem_map.mp member
      exact .inr (.inr ⟨_, _, name, rfl, rfl⟩)
    · exact .inl (List.mem_singleton.mp member)
  · exact .inl (List.mem_singleton.mp member)

/-- The operator and the right operand that the shape of a value asks for, if one comparison is all
it asks for. -/
def Expr.comparison? : Expr → Option (Operator × Expr)
  | list items => some (.isIn, list items)
  | subquery sql => some (.isIn, subquery sql)
  | conditions .pairs pairs => some (.isIn, Conditions.asList ⟨.pairs, pairs⟩)
  | conditions .mapping _ => none
  | isNotConstant truth => some (.isNot, value (.ofTruth truth))
  | isConstant truth => some (.is, value (.ofTruth truth))
  | value v => some (if v.isBooleanLike then .is else .eq, value v)
  | pattern _ => none
  | v => some (.eq, v)

namespace Predicate

theorem ofPair_of_comparison {k v right : Expr} {op : Operator}
    (asked : v.comparison? = some (op, right)) : ofPair k v = apply op [k, right] := by
  have membership (right : Expr) : assemble .isIn [.of k, .plain right] = apply .isIn [k, right] :=
    assemble_eq_apply (by simp [Operator.read, Operator.isMembership])
  have compared (op : Operator) (right : Expr) (plain : right.isSpecifier = false) :
      assemble op [.of k, .plain right] = apply op [k, right] := by
    rw [Operand.plain_eq_of plain]
    rfl
  cases v
  case list | subquery =>
    cases asked
    rw [ofPair, pairPredicate, membership]
  case conditions kind pairs =>
    cases kind <;> cases asked
    rw [ofPair, pairPredicate, membership]
  case pattern => cases asked
  all_goals
    cases asked
    rw [ofPair, pairPredicate, compared _ _ rfl] <;> simp

/-! The predicates of an operator mapping. -/

def matchText : Expr → Expr
  | .pattern p => .value (.string p.text)
  | e => e

def matchOperator (subject candidate : Expr) (caseInsensitive : Bool) : Operator :=
  let left := MatchSide.ofOperand (.of subject)
  let right := MatchSide.ofOperand (.of candidate)
  Pattern.operator (left.isRegex || right.isRegex)
    (left.isCaseInsensitive || caseInsensitive || right.isCaseInsensitive)

theorem operand_ofOperand_of (e : Expr) :
    (MatchSide.ofOperand (.of e)).operand = .of (matchText e) := by
  cases e <;> rfl

theorem like_eq (subject : Expr) (candidates : List Expr) (caseInsensitive : Bool) :
    like subject candidates caseInsensitive =
      if candidates.isEmpty then .error (.operandCount (Pattern.operator false caseInsensitive) 1)
      else (do
        let ps ← candidates.mapM fun candidate =>
          apply (matchOperator subject candidate caseInsensitive)
            [matchText subject, matchText candidate]
        join .or ps) := by
  have each (candidate : Expr) :
      matchOne (.ofOperand (.of subject)) caseInsensitive (.of candidate) =
        apply (matchOperator subject candidate caseInsensitive)
          [matchText subject, matchText candidate] := by
    simp only [matchOne, operand_ofOperand_of]
    rfl
  simp only [like, matching, List.isEmpty_map, List.mapM_map, Function.comp_def, each]

theorem between_eq (e low high : Expr) :
    between e low high = (do
      let lower ← apply .gte [e, low]
      let upper ← apply .lte [e, high]
      apply .and [lower.toExpr, upper.toExpr]) := by
  simp only [between, bounded, toOperand_eq_of]
  rfl

def ofNamed (column : Expr) (named : NamedOperator) (v : Expr) : Except Error Predicate :=
  match named with
  | .between negated =>
    match v with
    | .list [low, high] => do
      let p ← between column low high
      if negated then p.opposite else .ok p
    | _ => .error (.invalidArgument .betweenBounds)
  | .matching caseInsensitive negated => do
    let p ← like column (match v with | .list items => items | v => [v]) caseInsensitive
    if negated then p.opposite else .ok p
  | .plain op => apply op [column, v]

theorem ofName_eq (column : Expr) (name : String) (v : Expr) :
    ofName column name v = (do ofNamed column (← NamedOperator.ofName name) v) := by
  have each (named : NamedOperator) :
      ofArgument (.of column) named ⟨.of v, listedOperands v⟩ = ofNamed column named v := by
    cases named with
    | between negated =>
      cases v
      case list items =>
        rw [listedOperands_list]
        unfold ofArgument ofNamed
        rcases items with _ | ⟨low, _ | ⟨high, _ | ⟨_, _⟩⟩⟩ <;> rfl
      all_goals rfl
    | matching caseInsensitive negated =>
      cases v
      case list items =>
        rw [listedOperands_list]
        rfl
      all_goals rfl
    | plain op => rfl
  simp only [ofName, each]

end Predicate

end SqlExpr
