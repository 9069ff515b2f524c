import SqlExpr.Proofs.Concatenation
import SqlExpr.Proofs.Frontier
import SqlExpr.Proofs.Kleene

/-!
Matches with any of several candidates. Each candidate is matched as if it were the only one, and the
negation is that none of them matches: AND of the negative operators, on the operands of the matches.
-/

namespace SqlExpr

namespace Operator

def isMatch : Operator → Bool
  | like | ilike | regex | regexCi => true
  | _ => false

section Match

variable {op : Operator} (isMatch : op.isMatch = true)

include isMatch

theorem arity_of_isMatch : op.arity = .two := by
  cases op <;> first | rfl | cases isMatch

theorem exists_counterpart_of_isMatch : ∃ other, op.counterpart = some other := by
  cases op <;> first | exact ⟨_, rfl⟩ | cases isMatch

theorem refusesTruth_of_isMatch : refusesTruth .boolean op = false := by
  cases op <;> first | rfl | cases isMatch

end Match

theorem isPositive_of_two {op : Operator} (comparison : op.arity = .two) : op.isPositive = true := by
  cases op <;> first | rfl | cases comparison

end Operator

theorem Pattern.isMatch_operator (regex caseInsensitive : Bool) :
    (Pattern.operator regex caseInsensitive).isMatch = true := by
  cases regex <;> cases caseInsensitive <;> rfl

theorem Truth.foldl_and_iff (first : Truth) (others : List Truth) :
    others.foldl (connect .and) first = .holds ↔
      first = .holds ∧ ∀ value ∈ others, value = .holds := by
  induction others generalizing first with
  | nil => simp
  | cons value rest ih =>
    have both : connect .and first value = .holds ↔ first = .holds ∧ value = .holds := by
      cases first <;> cases value <;> decide
    rw [List.foldl_cons, ih, both, List.forall_mem_cons]
    tauto

namespace Predicate

/-- Predicates under one connective, or a single one as it is. -/
def beside (connective : Operator) : List Predicate → Predicate
  | [p] => p
  | ps => ⟨connective, ps.map toExpr⟩

/-- The opposite operator on the same operands. -/
def opposed (p : Predicate) : Predicate :=
  ⟨p.op.counterpart.getD p.op, p.args⟩

theorem beside_of_length_ne_one {connective : Operator} {ps : List Predicate}
    (several : ps.length ≠ 1) : beside connective ps = ⟨connective, ps.map toExpr⟩ := by
  unfold beside
  split
  · simp at several
  · rfl

/-! Comparisons stay apart under a connective. -/

theorem spliced_comparison {op : Operator} {p : Predicate} (many : op.arity = .many)
    (comparison : p.op.arity = .two) : spliced op true p.toExpr = [p.toExpr] := by
  rw [spliced_toExpr op (Operator.isPositive_of_two comparison), if_neg]
  intro same
  rw [same, many] at comparison
  cases comparison

theorem join_comparisons {op : Operator} (associative : op.isAssociative = true)
    {ps : List Predicate} (some : ps ≠ []) (each : ∀ p ∈ ps, p.op.arity = .two) :
    join op ps = .ok (beside op ps) := by
  by_cases single : ps.length = 1
  · obtain ⟨p, rfl⟩ := List.length_eq_one_iff.mp single
    rfl
  · refine (join_associative_iff associative single).mpr ⟨some, ?_⟩
    have many := Operator.many_of_isAssociative associative
    rw [beside_of_length_ne_one single, List.map_eq_flatMap,
      List.flatMap_congr fun p member => spliced_comparison many (each p member)]

theorem truth_beside_and_iff (V : Valuation) {ps : List Predicate} (some : ps ≠ []) :
    V.truth (beside .and ps).toExpr = .holds ↔ ∀ p ∈ ps, V.truth p.toExpr = .holds := by
  by_cases single : ps.length = 1
  · obtain ⟨p, rfl⟩ := List.length_eq_one_iff.mp single
    simp [beside]
  · obtain ⟨first, others, rfl⟩ := List.exists_cons_of_ne_nil some
    rw [beside_of_length_ne_one single, toExpr, V.truth_complex, Operator.read_of_many rfl,
      List.map_cons, List.map_cons, V.operate_connective (.inl rfl), Truth.foldl_and_iff]
    simp

/-- A match between two operands that stand for themselves. -/
structure IsMatch (m : Predicate) : Prop where
  operator : m.op.isMatch = true
  settled : m.toExpr.isSettled

namespace IsMatch

variable {m : Predicate} (h : m.IsMatch)

include h

theorem comparison : m.op.arity = .two :=
  Operator.arity_of_isMatch h.operator

theorem counterpart_opposed : m.op.counterpart = some m.opposed.op := by
  obtain ⟨other, swap⟩ := Operator.exists_counterpart_of_isMatch h.operator
  rw [opposed, swap]
  rfl

theorem comparison_opposed : m.opposed.op.arity = .two := by
  rw [Operator.counterpart_arity h.counterpart_opposed, h.comparison]

theorem not_isConnective : ¬m.op.isConnective := by
  intro connective
  have comparison := h.comparison
  rw [Operator.many_of_isConnective connective] at comparison
  cases comparison

theorem isApplicable : m.toExpr.isApplicable := by
  refine ⟨h.settled, fun refuses => ?_⟩
  rw [Operator.refusesTruth_of_isMatch h.operator] at refuses
  cases refuses

theorem truth_opposed_iff (V : Valuation) :
    V.truth m.opposed.toExpr = .holds ↔ V.truth m.toExpr = .fails := by
  have opposite : V.truth m.opposed.toExpr = (V.truth m.toExpr).not :=
    V.truth_counterpart h.counterpart_opposed h.not_isConnective h.settled.1
  rw [opposite]
  cases V.truth m.toExpr <;> decide

end IsMatch

/-! Negation of matches, where the operands are read as they are. -/

section Negation

variable {reading : SpecifierReading} (plainly : ∀ op args,
  (∀ arg ∈ op.read args, arg.isSpecifier = false) → reading.predicate op args = apply op args)

include plainly

theorem invertNode_match {m : Predicate} (h : m.IsMatch) :
    reading.invertNode .boolean m.op m.args = .ok m.opposed := by
  have swapped := applicable_nodeProperty.swapped .boolean m.op m.opposed.op m.args
    h.counterpart_opposed h.not_isConnective h.isApplicable
  have few : m.opposed.op.arity ≠ .many := by
    rw [h.comparison_opposed]
    decide
  refine SpecifierReading.invertNode_eq_ok_iff.mpr ⟨m.opposed.op, h.counterpart_opposed,
    .inr ⟨h.not_isConnective, ?_⟩⟩
  rw [plainly _ _ swapped.1.2, apply_of_settled swapped.1 swapped.2, Operator.arrange_of_not_many few]
  rfl

theorem invertNode_beside {matched : List Predicate} (some : matched ≠ [])
    (each : ∀ m ∈ matched, m.IsMatch) :
    reading.invertNode .boolean (beside .or matched).op (beside .or matched).args =
      .ok (beside .and (matched.map opposed)) := by
  by_cases single : matched.length = 1
  · obtain ⟨m, rfl⟩ := List.length_eq_one_iff.mp single
    exact invertNode_match plainly (each m (by simp))
  · have negated : (matched.map toExpr).mapM reading.invert =
        .ok ((matched.map opposed).map toExpr) := by
      rw [mapM_eq_ok_iff, List.map_map, List.forall₂_map_left_iff, List.forall₂_map_right_iff,
        List.forall₂_same]
      intro m member
      rw [toExpr, SpecifierReading.invert_complex, invertNode_match plainly (each m member)]
      rfl
    have joined : apply .and ((matched.map opposed).map toExpr) =
        .ok (beside .and (matched.map opposed)) := by
      rw [← join_of_length_ne_one (by simpa using single)]
      apply join_comparisons rfl (by simpa using some)
      rw [List.forall_mem_map]
      exact fun m member => (each m member).comparison_opposed
    have plain : ∀ arg ∈ Operator.and.read ((matched.map opposed).map toExpr),
        arg.isSpecifier = false := by
      rw [Operator.read_of_many rfl, List.forall_mem_map]
      exact fun _ _ => rfl
    rw [beside_of_length_ne_one single]
    refine SpecifierReading.invertNode_eq_ok_iff.mpr ⟨.and, rfl, .inl ⟨.inr rfl, _, negated, ?_⟩⟩
    rw [plainly _ _ plain, joined]

end Negation

/-! Candidates. -/

theorem like_single (subject candidate : Expr) (caseInsensitive : Bool) :
    like subject [candidate] caseInsensitive =
      apply (matchOperator subject candidate caseInsensitive)
        [matchText subject, matchText candidate] := by
  rw [like_eq]
  exact mapM_single_join .or _ candidate

theorem like_eq_bind {candidates : List Expr} (some : candidates ≠ []) (subject : Expr)
    (caseInsensitive : Bool) :
    like subject candidates caseInsensitive =
      candidates.mapM (like subject [·] caseInsensitive) >>= join .or := by
  rw [like_eq, if_neg (by simpa using some)]
  simp only [like_single]

theorem ne_nil_of_like {subject : Expr} {candidates : List Expr} {caseInsensitive : Bool}
    {p : Predicate} (found : like subject candidates caseInsensitive = .ok p) : candidates ≠ [] := by
  rintro rfl
  cases found

/-- What is made of one candidate alone: the operator that is asked for by the subject, by the
candidate or for all candidates. -/
structure Matches (subject : Expr) (caseInsensitive : Bool) (candidate : Expr) (m : Predicate) :
    Prop where
  alone : like subject [candidate] caseInsensitive = .ok m
  operator : m.op = matchOperator subject candidate caseInsensitive
  negative : m.op.counterpart = some m.opposed.op

theorem isMatch_matchOperator (subject candidate : Expr) (caseInsensitive : Bool) :
    (matchOperator subject candidate caseInsensitive).isMatch = true :=
  Pattern.isMatch_operator _ _

theorem isMatch_of_like {subject candidate : Expr} {caseInsensitive : Bool} {m : Predicate}
    (found : like subject [candidate] caseInsensitive = .ok m) :
    m.op = matchOperator subject candidate caseInsensitive ∧ m.IsMatch := by
  rw [like_single] at found
  obtain ⟨checked, settled, settles, rfl⟩ := apply_eq_ok_iff.mp found
  have operator := isMatch_matchOperator subject candidate caseInsensitive
  have few : (matchOperator subject candidate caseInsensitive).arity ≠ .many := by
    rw [Operator.arity_of_isMatch operator]
    decide
  refine ⟨rfl, operator, ?_⟩
  rw [toExpr, Operator.arrange_of_not_many few]
  refine ⟨(checkOperands_eq_ok_iff.mp (checkOperands_settled checked settles)).2, ?_⟩
  exact forall_mem_read_of_settle settles fun _ _ _ => Expr.isSpecifier_of_resolve

theorem matches_of_like {subject candidate : Expr} {caseInsensitive : Bool} {m : Predicate}
    (found : like subject [candidate] caseInsensitive = .ok m) :
    Matches subject caseInsensitive candidate m :=
  ⟨found, (isMatch_of_like found).1, (isMatch_of_like found).2.counterpart_opposed⟩

theorem exists_matches_of_like {subject : Expr} {candidates : List Expr} {caseInsensitive : Bool}
    {p : Predicate} (found : like subject candidates caseInsensitive = .ok p) :
    ∃ matched, List.Forall₂ (Matches subject caseInsensitive) candidates matched ∧
      (∀ m ∈ matched, m.IsMatch) ∧ matched ≠ [] ∧ p = beside .or matched := by
  have some := ne_nil_of_like found
  rw [like_eq_bind some] at found
  obtain ⟨matched, each, joined⟩ := bind_eq_ok_iff.mp found
  have isMatch : ∀ m ∈ matched, m.IsMatch :=
    forall_of_mapM each fun candidate _ m alone => (isMatch_of_like alone).2
  have filled := ne_nil_of_mapM each some
  rw [join_comparisons rfl filled fun m member => (isMatch m member).comparison] at joined
  cases joined
  exact ⟨matched, (mapM_eq_ok_iff.mp each).imp fun _ _ => matches_of_like, isMatch, filled, rfl⟩

/-- A match with candidates in two parts is the disjunction of the matches with either part, and fails
as one of these fails. What is made of candidates is made of each alone and can be negated, by `not
like` as well: every match gives way to its negative operator, so that the negation holds if no
candidate matches. -/
theorem like_candidates {first second : List Expr} (some : first ≠ []) (some' : second ≠ [])
    (subject : Expr) (caseInsensitive : Bool) :
    ((∃ p, like subject (first ++ second) caseInsensitive = .ok p) ↔
        (∃ p, like subject first caseInsensitive = .ok p) ∧
          ∃ q, like subject second caseInsensitive = .ok q) ∧
      like subject (first ++ second) caseInsensitive = (do
        let p ← like subject first caseInsensitive
        let q ← like subject second caseInsensitive
        apply .or [p.toExpr, q.toExpr]) ∧
      ∀ candidates p, like subject candidates caseInsensitive = .ok p →
        ∃ matched, List.Forall₂ (Matches subject caseInsensitive) candidates matched ∧
          p = beside .or matched ∧ p.inverted = .ok (beside .and (matched.map opposed)) ∧
          (∀ name, NamedOperator.ofName name = .ok (.matching caseInsensitive true) →
            ofName subject name (.list candidates) = .ok (beside .and (matched.map opposed))) ∧
          ∀ V : Valuation, V.truth (beside .and (matched.map opposed)).toExpr = .holds ↔
            ∀ m ∈ matched, V.truth m.toExpr = .fails := by
  have filled : first ++ second ≠ [] := by simp [some]
  refine ⟨?_, ?_, ?_⟩
  · rw [like_eq_bind filled, like_eq_bind some, like_eq_bind some', exists_mapM_join_iff rfl filled,
      exists_mapM_join_iff rfl some, exists_mapM_join_iff rfl some', List.forall_mem_append]
  · rw [like_eq_bind filled, like_eq_bind some, like_eq_bind some']
    exact mapM_append_join rfl some some'
  · intro candidates p found
    obtain ⟨matched, alone, each, filled, rfl⟩ := exists_matches_of_like found
    refine ⟨matched, alone, rfl, ?_, ?_, ?_⟩
    · rw [inverted, Expr.invertNode_eq_full]
      exact invertNode_beside (fun _ _ _ => rfl) filled each
    · intro name named
      rw [ofName_eq, named]
      change ofNamed subject (.matching caseInsensitive true) (.list candidates) = _
      rw [ofNamed, found]
      exact invertNode_beside
        (fun _ _ => SpecifierReading.absent_predicate_of_plain) filled each
    · intro V
      rw [truth_beside_and_iff V (by simpa using filled), List.forall_mem_map]
      exact forall₂_congr fun m member => (each m member).truth_opposed_iff V

/-- The flags of one candidate are not those of the next. -/
theorem like_candidates_flagged :
    like (.identifier "name") ([.value (.string "A%")] ++
        [.pattern (.regex "^A" true), .value (.string "B%")]) false =
      .ok ⟨.or, [
        .complex .boolean .like [.identifier "name", .value (.string "A%")],
        .complex .boolean .regexCi [.identifier "name", .value (.string "^A")],
        .complex .boolean .like [.identifier "name", .value (.string "B%")]]⟩ := by
  rw [(like_candidates (by simp) (by simp) (.identifier "name") false).2.1]
  rfl

end Predicate

end SqlExpr
