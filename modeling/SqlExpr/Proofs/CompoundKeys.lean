import SqlExpr.Proofs.CompoundNames
import SqlExpr.Proofs.JsonOperands
import SqlExpr.Proofs.LeafPaths

/-!
Compound keys. Operators on several columns in one key are the AND of the operators on each of the
columns, and a key in a mapping that names several columns stands for an entry for each of them.
-/

namespace SqlExpr

namespace Predicate

theorem ofOperators_among {column : Expr} {entry : Expr × Expr} {entries : List (Expr × Expr)}
    (some : entries ≠ [])
    (same : ofEntry column entry = entries.mapM (ofEntry column) >>= join .and)
    (before after : List (Expr × Expr)) :
    ofOperators column (before ++ entry :: after) =
      ofOperators column (before ++ (entries ++ after)) := by
  simp only [ofOperators, operatorPredicates_eq_mapM, List.mapM_append, List.mapM_cons, same,
    bind_assoc, pure_bind]
  refine congrArg _ (funext fun left => ?_)
  -- The entries fail where the one does, before any that come after it.
  cases found : entries.mapM (ofEntry column) with
  | error e => rfl
  | ok group =>
    have associative : Operator.and.isAssociative = true := rfl
    obtain ⟨p, joined⟩ := (exists_join_iff associative).mpr (ne_nil_of_mapM found some)
    have merged (right : List Predicate) := join_among associative joined left right
    simp only [joined, merged, bind, Except.bind]

theorem ofEntry_mapping (column key : Expr) (inner : List (Expr × Expr)) :
    ofEntry column (key, .conditions .mapping inner) =
      (key.columns.mapM fun sub => ofOperators (.qualify column sub) inner) >>= join .and := rfl

theorem ofEntry_keyOf {name : String} (single : ',' ∉ name.toList) {key : Expr}
    (own : KeyOf name key) (column : Expr) (inner : List (Expr × Expr)) :
    ofEntry column (key, .conditions .mapping inner) =
      ofOperators (.qualify column (.named name)) inner := by
  rw [ofEntry_mapping]
  cases own with
  | named => rw [Expr.columns_named single, mapM_single_join]
  | identifier whole =>
    rw [Expr.columns_identifier_of_single single, mapM_single_join, whole]
  | string whole =>
    have alone : (Expr.value (.string name)).columns = [.value (.string name)] := by
      have single : isCompound name = false := by simpa [isCompound] using single
      simp [Expr.columns, single]
    rw [alone, mapM_single_join, whole]
    rfl

section StandsFor

variable {key : Expr} {names : List String} (stands : key.StandsFor names)

include stands

theorem ofPair_of_standsFor (operators : List (Expr × Expr)) :
    ofPair key (.conditions .mapping operators) =
      (names.mapM fun name => ofPair (.named name) (.conditions .mapping operators)) >>=
        join .and := by
  have each : ∀ name ∈ names, ofPair (.named name) (.conditions .mapping operators) =
      ofOperators (.named name) operators := by
    intro name member
    rw [ofPair_mapping, Expr.columns_named (stands.single name member)]
    exact mapM_single_join ..
  rw [ofPair_mapping, stands.columns, List.mapM_map, mapM_congr each]
  rfl

theorem ofEntry_of_standsFor {keys : List Expr} (own : List.Forall₂ KeyOf names keys)
    (column : Expr) (inner : List (Expr × Expr)) :
    ofEntry column (key, .conditions .mapping inner) =
      (keys.map (·, .conditions .mapping inner)).mapM (ofEntry column) >>= join .and := by
  have each : (keys.map (·, .conditions .mapping inner)).mapM (ofEntry column) =
      names.mapM fun name => ofOperators (.qualify column (.named name)) inner := by
    have single := stands.single
    clear stands
    induction own with
    | nil => rfl
    | cons here _ ih =>
      rw [List.forall_mem_cons] at single
      rw [List.map_cons, List.mapM_cons, List.mapM_cons, ih single.2, ofEntry_keyOf single.1 here]
  rw [ofEntry_mapping, stands.columns, List.mapM_map, each]
  rfl

theorem ofOperators_of_standsFor {keys : List Expr} (own : List.Forall₂ KeyOf names keys)
    (column : Expr) (before inner after : List (Expr × Expr)) :
    ofOperators column (before ++ (key, .conditions .mapping inner) :: after) =
      ofOperators column (before ++ (keys.map (·, .conditions .mapping inner) ++ after)) := by
  refine ofOperators_among ?_ (ofEntry_of_standsFor stands own column inner) before after
  intro none
  rw [List.map_eq_nil_iff] at none
  subst none
  cases own
  exact stands.some rfl

end StandsFor

end Predicate

/-- Ordered pairs with the same value under each of the names. -/
def Conditions.onEach (names : List String) (held : Expr) : Conditions :=
  names.foldl (fun c name => c.insertNamed name held) (empty .pairs)

theorem Conditions.onEach_eq (names : List String) (held : Expr) :
    onEach names held = ⟨.pairs, names.map fun name => (.named name, held)⟩ := by
  have grown (kept : List (Expr × Expr)) :
      names.foldl (fun c name => insertNamed name held c) ⟨.pairs, kept⟩ =
        ⟨.pairs, kept ++ names.map fun name => (.named name, held)⟩ := by
    induction names generalizing kept with
    | nil => simp
    | cons name rest ih =>
      rw [List.map_cons, List.append_cons]
      exact ih _
  exact grown []

theorem Conditions.insertNamed_empty (kind : ConditionsKind) (name : String) (held : Expr) :
    (empty kind).insertNamed name held = ⟨kind, [(.named name, held)]⟩ := by
  cases kind <;> rfl

namespace Predicate

theorem ofConditions_eq (c : Conditions) (connective : Operator) :
    ofConditions c connective false =
      (c.pairs.mapM fun pair => ofPair pair.1 pair.2) >>= join connective := by
  have each : ∀ pair ∈ c.pairs, (ofPair pair.1 pair.2 >>= Except.ok) = ofPair pair.1 pair.2 :=
    fun _ _ => bind_pure _
  rw [← mapM_congr each]
  rfl

theorem ofConditions_single (kind : ConditionsKind) (key held : Expr) (connective : Operator) :
    ofConditions ⟨kind, [(key, held)]⟩ connective false = ofPair key held := by
  rw [ofConditions_eq]
  exact mapM_single_join ..

theorem ofConditions_onEach (names : List String) (held : Expr) (connective : Operator) :
    ofConditions (.onEach names held) connective false =
      (names.mapM fun name => ofPair (.named name) held) >>= join connective := by
  rw [ofConditions_eq, Conditions.onEach_eq, List.mapM_map]
  rfl

theorem isName_of_mem_scoped : ∀ name ∈ ["t__a", "b"], IsName name := by
  rw [List.forall_mem_cons, List.forall_mem_singleton]
  exact ⟨⟨by decide, by decide, by decide⟩, ⟨by decide, by decide, by decide⟩⟩

end Predicate

end SqlExpr
