import SqlExpr.Proofs.Insertion

/-!
Conditions and the lists that stand for them. What is taken for a specifier reads as conditions, a list
of pairs is written back from them as it was, and conditions with at least one pair are read back from
their list.
-/

namespace SqlExpr

namespace Expr

@[simp] theorem isPair_ofPair (pair : Expr × Expr) : (ofPair pair).isPair = true := rfl

@[simp] theorem pair?_ofPair (pair : Expr × Expr) : (ofPair pair).pair? = some pair := rfl

theorem exists_ofPair {e : Expr} (isPair : e.isPair = true) : ∃ pair, e = ofPair pair := by
  unfold Expr.isPair at isPair
  split at isPair
  · exact ⟨(_, _), rfl⟩
  · cases isPair

/-- A list that reads as conditions is made of their pairs, none of which is left out. -/
theorem exists_pairs_of_arePairs {items : List Expr} (specifier : arePairs items = true) :
    ∃ pairs, pairs ≠ [] ∧ items = pairs.map ofPair := by
  simp only [arePairs, Bool.and_eq_true, Bool.not_eq_true', List.isEmpty_eq_false_iff,
    List.all_eq_true] at specifier
  obtain ⟨some, each⟩ := specifier
  obtain ⟨pairs, rfl⟩ : ∃ pairs : List (Expr × Expr), pairs.map ofPair = items := by
    rw [← Set.mem_range, Set.range_list_map]
    exact fun item member => (exists_ofPair (each item member)).imp fun _ => Eq.symm
  exact ⟨pairs, by simpa using some, rfl⟩

end Expr

namespace Conditions

theorem arePairs_map_ofPair {pairs : List (Expr × Expr)} (some : pairs ≠ []) :
    Expr.arePairs (pairs.map Expr.ofPair) = true := by
  simp [Expr.arePairs, some]

theorem ofSpecifier?_asList {c : Conditions} (some : c.pairs ≠ []) :
    ofSpecifier? c.asList = .some ⟨.pairs, c.pairs⟩ := by
  rw [asList, ofSpecifier?, if_pos (arePairs_map_ofPair some)]
  simp [List.filterMap_map, Function.comp_def]

/-- An expression reads as conditions exactly if it is a specifier. A list of pairs reads as ordered pairs,
inserted one after another, and is their list again; the list of conditions that are not empty is a
specifier and reads as their pairs. -/
theorem specifier_roundTrip :
    (∀ e : Expr, (ofSpecifier? e).isSome = true ↔ e.isSpecifier = true) ∧
      (∀ items, (Expr.list items).isSpecifier = true →
        ∃ c, ofSpecifier? (.list items) = some c ∧ c.kind = .pairs ∧ c.asList = .list items ∧
          c = ofList .pairs (items.filterMap Expr.pair?)) ∧
      ∀ c : Conditions, c.pairs ≠ [] →
        c.asList.isSpecifier = true ∧ ofSpecifier? c.asList = some ⟨.pairs, c.pairs⟩ := by
  refine ⟨?_, ?_, ?_⟩
  · intro e
    rw [Option.isSome_iff_exists]
    constructor
    · rintro ⟨c, found⟩
      exact Expr.isSpecifier_of_ofSpecifier? found
    · exact Expr.exists_ofSpecifier?
  · intro items specifier
    obtain ⟨pairs, some, rfl⟩ := Expr.exists_pairs_of_arePairs specifier
    have read : ofSpecifier? (asList ⟨.pairs, pairs⟩) = .some ⟨.pairs, pairs⟩ :=
      ofSpecifier?_asList some
    refine ⟨⟨.pairs, pairs⟩, read, rfl, rfl, ?_⟩
    rw [ofList_pairs]
    simp [List.filterMap_map, Function.comp_def]
  · intro c some
    exact ⟨arePairs_map_ofPair some, ofSpecifier?_asList some⟩

/-- A key that is given twice stays twice, and a value may be a list of pairs itself. -/
theorem specifier_roundTrip_repeated :
    ∃ c, ofSpecifier? (.list [.list [.identifier "a", .value (.integer 1)],
          .list [.identifier "a", .list [.list [.identifier "b", .value .null]]]]) = some c ∧
      c.kind = .pairs ∧ c.asList = .list [.list [.identifier "a", .value (.integer 1)],
          .list [.identifier "a", .list [.list [.identifier "b", .value .null]]]] := by
  obtain ⟨c, found, kind, back, _⟩ := specifier_roundTrip.2.1
    [.list [.identifier "a", .value (.integer 1)],
      .list [.identifier "a", .list [.list [.identifier "b", .value .null]]]] rfl
  exact ⟨c, found, kind, back⟩

end Conditions

end SqlExpr
