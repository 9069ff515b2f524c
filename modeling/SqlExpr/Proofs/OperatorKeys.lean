import SqlExpr.Proofs.JsonOperands
import SqlExpr.Proofs.LeafPaths

/-!
How the keys of operators are written. An operator is known by the name that its key spells, so the
name means the same as an identifier, as a string, and where a separator in it is taken to qualify.
Mappings that differ in nothing else come to the same predicate, however deep they are.
-/

namespace SqlExpr

/-- Mappings with the same values under keys that spell the same names. Mappings among the values may
differ likewise, under keys that name the same columns. -/
inductive Respelled : List (Expr × Expr) → List (Expr × Expr) → Prop
  | nil : Respelled [] []
  | same (entry : Expr × Expr) {rest rest' : List (Expr × Expr)} :
      Respelled rest rest' → Respelled (entry :: rest) (entry :: rest')
  | operator {key key' held : Expr} {rest rest' : List (Expr × Expr)} :
      (∀ inner, held ≠ .conditions .mapping inner) → key.symbolicName? = key'.symbolicName? →
      Respelled rest rest' → Respelled ((key, held) :: rest) ((key', held) :: rest')
  | columns {key key' : Expr} {inner inner' rest rest' : List (Expr × Expr)} :
      key.columns = key'.columns → Respelled inner inner' → Respelled rest rest' →
      Respelled ((key, .conditions .mapping inner) :: rest)
        ((key', .conditions .mapping inner') :: rest')

namespace Respelled

open Predicate

theorem refl (entries : List (Expr × Expr)) : Respelled entries entries := by
  induction entries with
  | nil => exact .nil
  | cons entry rest ih => exact .same entry ih

variable {entries entries' : List (Expr × Expr)} (respelled : Respelled entries entries')

include respelled

theorem mapM_ofEntry_eq (column : Expr) :
    entries.mapM (ofEntry column) = entries'.mapM (ofEntry column) := by
  -- What is below a key is on another column, so the column is left open.
  induction respelled generalizing column with
  | nil => rfl
  | same entry _ ih => rw [List.mapM_cons, List.mapM_cons, ih]
  | operator leaf spelled _ ih =>
    rw [List.mapM_cons, List.mapM_cons, ih, ofEntry_leaf column _ leaf, ofEntry_leaf column _ leaf]
    simp only [Leaf.predicate, NamedOperator.nameOf, spelled]
  | columns named _ _ inside ih =>
    simp only [List.mapM_cons, ofEntry, ofOperators, operatorPredicates_eq_mapM, named, inside, ih]

theorem ofOperators_eq (column : Expr) :
    ofOperators column entries = ofOperators column entries' := by
  simp only [ofOperators, operatorPredicates_eq_mapM, respelled.mapM_ofEntry_eq]

theorem ofPair_eq (key : Expr) :
    ofPair key (.conditions .mapping entries) = ofPair key (.conditions .mapping entries') := by
  simp only [ofPair_mapping, respelled.ofOperators_eq]

theorem ofConditions_eq (kind : ConditionsKind) (before : List (Expr × Expr)) (key : Expr)
    (after : List (Expr × Expr)) (connective : Operator) (negate : Bool) :
    ofConditions ⟨kind, before ++ (key, .conditions .mapping entries) :: after⟩ connective negate =
      ofConditions ⟨kind, before ++ (key, .conditions .mapping entries') :: after⟩ connective
        negate := by
  simp only [ofConditions, List.mapM_append, List.mapM_cons, respelled.ofPair_eq]

end Respelled

/-! Operators given by their names. -/

/-- The entry for an operator and its value, under one of the keys that its name is written as. -/
inductive Writes : String × Expr → Expr × Expr → Prop
  | named (name : String) (held : Expr) : Writes (name, held) (.named name, held)
  | identifier (name : String) (held : Expr) : Writes (name, held) (.identifier name, held)
  | string (name : String) (held : Expr) : Writes (name, held) (.value (.string name), held)

namespace Writes

variable {operator : String × Expr} {entry : Expr × Expr} (writes : Writes operator entry)

include writes

theorem symbolicName?_eq : entry.1.symbolicName? = some operator.1 := by
  cases writes with
  | named name held => exact Expr.symbolicName?_named name
  | identifier name held => rfl
  | string name held => rfl

theorem held_eq : entry.2 = operator.2 := by
  cases writes <;> rfl

end Writes

theorem written_identifiers (operators : List (String × Expr)) :
    List.Forall₂ Writes operators
      (operators.map fun operator => (.identifier operator.1, operator.2)) := by
  rw [List.forall₂_map_right_iff, List.forall₂_same]
  exact fun operator _ => .identifier operator.1 operator.2

section Written

variable {operators : List (String × Expr)} {entries entries' : List (Expr × Expr)}
  (written : List.Forall₂ Writes operators entries)

include written

theorem names_written : entries.map (·.1.symbolicName?) = (operators.map (·.1)).map some := by
  induction written with
  | nil => rfl
  | cons head _ ih =>
    rw [List.map_cons, List.map_cons, List.map_cons, ih, head.symbolicName?_eq]

theorem respelled_written (written' : List.Forall₂ Writes operators entries')
    (leaves : ∀ operator ∈ operators, ∀ inner, operator.2 ≠ .conditions .mapping inner) :
    Respelled entries entries' := by
  induction written generalizing entries' with
  | nil =>
    cases written'
    exact .nil
  | @cons operator entry _ _ head _ ih =>
    obtain ⟨_⟩ | @⟨_, entry', _, _, head', tail'⟩ := written'
    obtain ⟨key, held⟩ := entry
    obtain ⟨key', held'⟩ := entry'
    obtain rfl : held = held' := head.held_eq.trans head'.held_eq.symm
    rw [List.forall_mem_cons] at leaves
    refine .operator ?_ ?_ (ih tail' leaves.2)
    · have own : held = operator.2 := head.held_eq
      rw [own]
      exact leaves.1
    · exact head.symbolicName?_eq.trans head'.symbolicName?_eq.symm

end Written

namespace Predicate

theorem ofOperators_identifiers (column : Expr) {operators : List (String × Expr)}
    (leaves : ∀ operator ∈ operators, ∀ inner, operator.2 ≠ .conditions .mapping inner) :
    ofOperators column (operators.map fun operator => (.identifier operator.1, operator.2)) =
      operators.mapM (fun operator => ofName column operator.1 operator.2) >>= join .and := by
  have each : ∀ operator ∈ operators, ofEntry column (.identifier operator.1, operator.2) =
      ofName column operator.1 operator.2 := by
    intro operator member
    rw [ofEntry_leaf column _ (leaves operator member)]
    exact pure_bind operator.1 fun name => ofName column name operator.2
  rw [ofOperators, operatorPredicates_eq_mapM, List.mapM_map, ← mapM_congr each]
  rfl

/-- A key spells its name however it is written, so the operators on a column are those of their names,
joined by AND, under any such keys, and fail alike. Where no name is given twice, mappings into which they
are inserted come to the same predicate under each key of the conditions. -/
theorem ofOperators_written :
    (∀ name, (Expr.named name).symbolicName? = some name) ∧
      ∀ (operators : List (String × Expr)) (entries entries' : List (Expr × Expr)),
        (∀ operator ∈ operators, ∀ inner, operator.2 ≠ .conditions .mapping inner) →
        List.Forall₂ Writes operators entries → List.Forall₂ Writes operators entries' →
        (∀ column, ofOperators column entries = ofOperators column entries' ∧
          ofOperators column entries =
            operators.mapM (fun operator => ofName column operator.1 operator.2) >>= join .and) ∧
        ((operators.map (·.1)).Nodup → ∀ kind before key after connective negate,
          ofConditions ⟨kind, before ++ (key, (Conditions.ofList .mapping entries).toExpr) :: after⟩
              connective negate =
            ofConditions ⟨kind, before ++ (key, (Conditions.ofList .mapping entries').toExpr) :: after⟩
              connective negate) := by
  refine ⟨Expr.symbolicName?_named, ?_⟩
  intro operators entries entries' leaves written written'
  have respelled := respelled_written written written' leaves
  refine ⟨fun column => ⟨respelled.ofOperators_eq column, ?_⟩, ?_⟩
  · have named := respelled_written written (written_identifiers operators) leaves
    rw [named.ofOperators_eq, ofOperators_identifiers column leaves]
  · intro distinct
    rw [Conditions.ofList_of_names (names_written written) distinct,
      Conditions.ofList_of_names (names_written written') distinct]
    exact respelled.ofConditions_eq

theorem ofOperators_written_between :
    ofOperators (.identifier "a")
        [(.qualified (.identifier "not") (.identifier "between"),
            .list [.value (.integer 1), .value (.integer 10)]),
          (.value (.string "__gte"), .value (.integer 5))] =
      .ok ⟨.and, [
        .complex .boolean .or [.complex .boolean .lt [.identifier "a", .value (.integer 1)],
          .complex .boolean .gt [.identifier "a", .value (.integer 10)]],
        .complex .boolean .gte [.identifier "a", .value (.integer 5)]]⟩ ∧
    ofConditions ⟨.pairs, [(.identifier "t", .value .null), (.identifier "a",
        (Conditions.ofList .mapping
          [(.qualified (.identifier "not") (.identifier "between"),
              .list [.value (.integer 1), .value (.integer 10)]),
            (.value (.string "__gte"), .value (.integer 5))]).toExpr)]⟩ .or true =
      ofConditions ⟨.pairs, [(.identifier "t", .value .null), (.identifier "a",
        (Conditions.ofList .mapping
          [(.value (.string "not__between"), .list [.value (.integer 1), .value (.integer 10)]),
            (.identifier "__gte", .value (.integer 5))]).toExpr)]⟩ .or true := by
  have leaves : ∀ operator ∈ [("not__between", Expr.list [.value (.integer 1), .value (.integer 10)]),
      ("__gte", .value (.integer 5))], ∀ inner, operator.2 ≠ .conditions .mapping inner := by
    simp
  obtain ⟨same, inserted⟩ := ofOperators_written.2 _ _ _ leaves
    (.cons (.named "not__between" _) (.cons (.string "__gte" _) .nil))
    (.cons (.string "not__between" _) (.cons (.identifier "__gte" _) .nil))
  refine ⟨?_, inserted (by decide) .pairs [(.identifier "t", .value .null)] _ [] .or true⟩
  exact (same (.identifier "a")).1.trans rfl

end Predicate

end SqlExpr
