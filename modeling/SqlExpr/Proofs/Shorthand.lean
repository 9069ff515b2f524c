import SqlExpr.Proofs.LeafPaths

/-!
Values that stand alone under a column, and the operators that they imply. Naming the operator makes
no difference, but for ordered pairs, which only stand for a list of pairs where no operator is named.
-/

namespace SqlExpr

namespace Expr

/-- The name of the operator that a value under a column implies. -/
def impliedName? : Expr → Option String
  | list _ | subquery _ | conditions .pairs _ => some "in"
  | conditions .mapping _ | isConstant _ | isNotConstant _ => none
  | value v => some (if v.isBooleanLike then "is" else "eq")
  | pattern _ => some "like"
  | _ => some "eq"

/-- Ordered pairs as the list that a membership test compares with. -/
def listed : Expr → Expr
  | conditions .pairs pairs => Conditions.asList ⟨.pairs, pairs⟩
  | e => e

/-- The key spells the name of an operator, in any case and with any blanks or underscores. -/
def NamesOperator (key : Expr) (name : String) : Prop :=
  ∃ text, key.symbolicName? = some text ∧ NamedOperator.spelling text = NamedOperator.spelling name

theorem listed_eq_or_pairs (v : Expr) : v.listed = v ∨ ∃ pairs, v = .conditions .pairs pairs := by
  cases v
  case conditions kind pairs =>
    cases kind
    · exact .inl rfl
    · exact .inr ⟨pairs, rfl⟩
  all_goals exact .inl rfl

theorem listed_ne_mapping {v : Expr} {name : String} (implied : v.impliedName? = some name) :
    ∀ inner, v.listed ≠ .conditions .mapping inner := by
  intro inner same
  rcases v.listed_eq_or_pairs with alone | ⟨pairs, rfl⟩
  · rw [alone] at same
    subst same
    cases implied
  · cases same

end Expr

theorem NamedOperator.ofName_congr {text text' : String} (same : spelling text = spelling text') :
    ofName text = ofName text' := by
  rw [ofName, ofName, same]

namespace Predicate

theorem apply_isIn (k right : Expr) :
    apply .isIn [k, right] = (do return ⟨.isIn, [← k.resolve, right]⟩) := by
  have checked : checkOperands .boolean .isIn [k, right] = .ok () := rfl
  have settled : settle .isIn [.of k, .of right] = (do return [← k.resolve, right]) := by
    rw [settle_cons]
    rfl
  simp only [apply, assemble, SqlExpr.assemble_eq, List.map_cons, List.map_nil, Operand.given_of,
    checked, settled]
  cases k.resolve <;> rfl

/-- The operator that a value implies, when it is named, makes the same predicate. -/
theorem ofName_implied {k v : Expr} {text name : String} (implied : v.impliedName? = some name)
    (spelled : NamedOperator.spelling text = NamedOperator.spelling name) :
    ofName k text v.listed = ofPair k v := by
  have compared {right : Expr} {op : Operator} (asked : v.comparison? = some (op, right))
      (same : v.listed = right) (named : NamedOperator.ofName name = .ok (.plain op)) :
      ofName k text v.listed = ofPair k v := by
    rw [ofName_eq, NamedOperator.ofName_congr spelled, named, ofPair_of_comparison asked, same]
    rfl
  cases v
  case list | subquery =>
    cases implied
    exact compared rfl rfl rfl
  case conditions kind pairs =>
    cases kind <;> cases implied
    exact compared rfl rfl rfl
  case isConstant | isNotConstant => cases implied
  case value v =>
    cases implied
    refine compared rfl rfl ?_
    by_cases truth : v.isBooleanLike = true
    · rw [if_pos truth, if_pos truth]
      rfl
    · rw [if_neg truth, if_neg truth]
      rfl
  case pattern p =>
    cases implied
    rw [ofName_eq, NamedOperator.ofName_congr spelled, ofPair_pattern]
    exact bind_pure (like k [.pattern p] false)
  all_goals
    cases implied
    exact compared rfl rfl rfl

theorem ofPair_operator {k key v : Expr} {text : String} (whole : k.columns = [k])
    (symbolic : key.symbolicName? = some text) (leaf : ∀ inner, v ≠ .conditions .mapping inner) :
    ofPair k (.conditions .mapping [(key, v)]) = ofName k text v := by
  have nameOf : NamedOperator.nameOf key = .ok text := by
    simp [NamedOperator.nameOf, symbolic]
  rw [ofPair_mapping, whole, mapM_single_join, ofOperators, operatorPredicates_eq_mapM,
    mapM_single_join, ofEntry_leaf k key leaf, Leaf.predicate, nameOf]
  exact pure_bind text fun name => ofName k name v

theorem ofPair_implied {k key v : Expr} {name : String} (whole : k.columns = [k])
    (implied : v.impliedName? = some name) (names : key.NamesOperator name) :
    ofPair k (.conditions .mapping [(key, v.listed)]) = ofPair k v := by
  obtain ⟨text, symbolic, spelled⟩ := names
  rw [ofPair_operator whole symbolic (Expr.listed_ne_mapping implied),
    ofName_implied implied spelled]

theorem ofPair_pairs_ne {k key : Expr} {pairs : List (Expr × Expr)} (whole : k.columns = [k])
    (names : key.NamesOperator "in") :
    ofPair k (.conditions .mapping [(key, .conditions .pairs pairs)]) =
        ofPair k (.conditions .pairs pairs) ↔
      ∃ failure, k.resolve = .error failure := by
  obtain ⟨text, symbolic, spelled⟩ := names
  have given : ofPair k (.conditions .mapping [(key, .conditions .pairs pairs)]) =
      apply .isIn [k, .conditions .pairs pairs] := by
    rw [ofPair_operator whole symbolic (by simp), ofName_eq, NamedOperator.ofName_congr spelled]
    rfl
  rw [given, ofPair_of_comparison rfl, apply_isIn, apply_isIn]
  cases k.resolve with
  | error failure => simp [bind, Except.bind]
  | ok resolved => simp [bind, Except.bind, pure, Except.pure, Conditions.asList]

/-- A value under a column that a key leaves whole comes to the same predicates as the operator that
it implies, or fails alike, wherever it stands among the conditions. Ordered pairs have to be given to
the operator as a list. -/
theorem ofConditions_implied {k key v : Expr} {name : String} (whole : k.columns = [k])
    (implied : v.impliedName? = some name) (names : key.NamesOperator name) :
    (∀ kind before after connective negate,
      ofConditions ⟨kind, before ++ (k, .conditions .mapping [(key, v.listed)]) :: after⟩
          connective negate =
        ofConditions ⟨kind, before ++ (k, v) :: after⟩ connective negate) ∧
    (ofPair k (.conditions .mapping [(key, v)]) = ofPair k v ↔
      v.listed = v ∨ ∃ failure, k.resolve = .error failure) := by
  constructor
  · intro kind before after connective negate
    simp only [ofConditions, List.mapM_append, List.mapM_cons, ofPair_implied whole implied names]
  · rcases v.listed_eq_or_pairs with alone | ⟨pairs, rfl⟩
    · have same := ofPair_implied whole implied names
      rw [alone] at same
      simp [same, alone]
    · cases implied
      rw [ofPair_pairs_ne whole names]
      simp [Expr.listed, Conditions.asList]

theorem ofConditions_implied_list :
    ofConditions ⟨.mapping, [(.identifier "t", .value .null), (.qualified (.identifier "t")
        (.identifier "c"), .conditions .mapping [(.value (.string " In "),
          .list [.list [.identifier "x", .value (.integer 1)]])])]⟩ .or true =
      ofConditions ⟨.mapping, [(.identifier "t", .value .null), (.qualified (.identifier "t")
        (.identifier "c"), .list [.list [.identifier "x", .value (.integer 1)]])]⟩ .or true := by
  have whole : (Expr.qualified (.identifier "t") (.identifier "c")).columns =
      [.qualified (.identifier "t") (.identifier "c")] := rfl
  have names : (Expr.value (.string " In ")).NamesOperator "in" := ⟨" In ", rfl, by decide⟩
  have implied := ofConditions_implied whole
    (show (Expr.list [.list [.identifier "x", .value (.integer 1)]]).impliedName? = some "in" from rfl)
    names
  exact implied.1 .mapping [(.identifier "t", .value .null)] [] .or true

/-- Under a named membership test ordered pairs stay conditions, and stand for no list. -/
theorem not_ofConditions_implied_pairs :
    ¬ ∀ k key v name, k.columns = [k] → v.impliedName? = some name → key.NamesOperator name →
      ofConditions ⟨.mapping, [(k, .conditions .mapping [(key, v)])]⟩ .and false =
        ofConditions ⟨.mapping, [(k, v)]⟩ .and false := by
  intro agree
  have named : ofConditions ⟨.mapping, [(.identifier "a", .conditions .mapping [(.identifier "in",
      .conditions .pairs [(.identifier "x", .value (.integer 1))])])]⟩ .and false =
      .ok ⟨.isIn, [.identifier "a",
        .conditions .pairs [(.identifier "x", .value (.integer 1))]]⟩ := rfl
  have alone : ofConditions ⟨.mapping, [(.identifier "a",
      .conditions .pairs [(.identifier "x", .value (.integer 1))])]⟩ .and false =
      .ok ⟨.isIn, [.identifier "a",
        .list [.list [.identifier "x", .value (.integer 1)]]]⟩ := rfl
  have same := agree (.identifier "a") (.identifier "in")
    (.conditions .pairs [(.identifier "x", .value (.integer 1))]) "in" rfl rfl ⟨"in", rfl, rfl⟩
  rw [named, alone] at same
  cases same

end Predicate

end SqlExpr
