import SqlExpr.Proofs.OperatorKeys

/-!
An object of conditions and the array of its entries as pairs. The two differ in how they take keys:
as a pair, an entry has its key read as a string first, and the outermost objects in its value are
keyed like outermost objects, so that a double underscore in their keys qualifies.
-/

namespace SqlExpr

namespace Json

def pairsOf (entries : List (String × Json)) : Json :=
  array (entries.map fun entry => ofPair (string entry.1) entry.2)

/-- The outermost objects in the value have only keys in which nothing is qualified. -/
inductive KeysWhole : Json → Prop
  | scalar {json : Json} : json.children = [] → KeysWhole json
  | array {items : List Json} : (∀ item ∈ items, KeysWhole item) → KeysWhole (array items)
  | object {entries : List (String × Json)} :
      (∀ entry ∈ entries, Expr.named entry.1 = .identifier entry.1) → KeysWhole (object entries)

/-- Each key in the operator mapping that holds a further mapping stands for the same columns whether
it is taken as it is or qualifies. -/
def ColumnsAlike (operators : List (String × Json)) : Prop :=
  ∀ name inner, (name, object inner) ∈ operators →
    (Expr.named name).columns = (Expr.identifier name).columns

/-- As the value of a column it does not matter which rule the keys in the value follow. -/
def ReadsAlike : Json → Prop
  | object operators => ColumnsAlike operators
  | json => json.KeysWhole

end Json

namespace Expr

theorem ofJsonKeyed_named_of_keysWhole {json : Json} (whole : json.KeysWhole) :
    ofJsonKeyed named json = ofJsonKeyed identifier json := by
  induction whole with
  | @scalar json childless =>
    cases json <;> simp only [Json.children, List.map_eq_nil_iff] at childless
    case array items =>
      rw [childless]
      rfl
    case object entries =>
      rw [childless]
      rfl
    all_goals rfl
  | @array items _ ih =>
    rw [ofJsonKeyed_array, ofJsonKeyed_array, List.map_congr_left ih]
  | @object entries same =>
    rw [ofJsonKeyed, ofJsonKeyed, ofJsonEntries_eq_map, ofJsonEntries_eq_map]
    have each : ∀ entry ∈ entries, (named entry.1, ofJsonKeyed identifier entry.2) =
        (identifier entry.1, ofJsonKeyed identifier entry.2) := by
      intro entry member
      rw [same entry member]
    rw [List.map_congr_left each]

end Expr

namespace Predicate

/-- Two rules for keys make no difference to the operators of a column if they agree on the columns
below it: operators are known by the names that their keys spell. -/
theorem respelled_ofJsonEntries {key key' : String → Expr} (spelled : SpellsNames key)
    (spelled' : SpellsNames key') {operators : List (String × Json)}
    (same : ∀ name inner, (name, .object inner) ∈ operators →
      (key name).columns = (key' name).columns) :
    Respelled (Expr.ofJsonEntries key operators) (Expr.ofJsonEntries key' operators) := by
  induction operators with
  | nil => exact .nil
  | cons operator rest ih =>
    obtain ⟨name, held⟩ := operator
    have later := ih fun name inner member => same name inner (List.mem_cons_of_mem _ member)
    rw [Expr.ofJsonEntries, Expr.ofJsonEntries]
    rcases held.object_or_leaf with ⟨inner, rfl⟩ | scalar
    · rw [Expr.ofJsonKeyed, Conditions.toExpr, Conditions.ofList_kind]
      exact .columns (same name inner (by simp)) (.refl _) later
    · refine .operator (Expr.ofJsonKeyed_ne_mapping scalar) ?_ later
      rw [spelled, spelled']

theorem ofPair_named (k : Expr) {v : Json} (distinct : v.keysDistinct = true) (alike : v.ReadsAlike) :
    ofPair k (.ofJsonKeyed .named v) = ofPair k (.ofJsonKeyed .identifier v) := by
  rcases v.object_or_leaf with ⟨operators, rfl⟩ | scalar
  · have once := (Json.keysDistinct_object_iff.mp distinct).1
    rw [Expr.ofJsonKeyed_object Expr.spellsNames_named once,
      Expr.ofJsonKeyed_object Expr.spellsNames_identifier once]
    exact (respelled_ofJsonEntries Expr.spellsNames_named Expr.spellsNames_identifier alike).ofPair_eq k
  · have whole : v.KeysWhole := by
      cases v
      case object operators => exact absurd rfl (scalar operators)
      all_goals exact alike
    rw [Expr.ofJsonKeyed_named_of_keysWhole whole]

theorem ofConditions_congr {α : Type} {items : List α} {first second : α → Expr × Expr}
    (same : ∀ item ∈ items,
      ofPair (first item).1 (first item).2 = ofPair (second item).1 (second item).2)
    (kind kind' : ConditionsKind) (connective : Operator) (negate : Bool) :
    ofConditions ⟨kind, items.map first⟩ connective negate =
      ofConditions ⟨kind', items.map second⟩ connective negate := by
  simp only [ofConditions, List.mapM_map, Function.comp_def]
  rw [mapM_congr fun item member => by rw [same item member]]

/-- Conditions as an object and as the array of its entries come to the same predicate or fail alike,
if no key is a regular expression and the value of no entry depends on the rule for keys. -/
theorem ofJson_pairsOf {entries : List (String × Json)} (some : entries ≠ [])
    (distinct : (Json.object entries).keysDistinct = true)
    (plain : ∀ entry ∈ entries, Json.isRegex entry.1 = false)
    (alike : ∀ entry ∈ entries, entry.2.ReadsAlike) (connective : Operator) (negate : Bool) :
    ofJson (.object entries) connective negate =
      ofJson (.pairsOf entries) connective negate := by
  obtain ⟨once, below⟩ := Json.keysDistinct_object_iff.mp distinct
  have arePairs : Json.arePairs (entries.map fun entry => .ofPair (.string entry.1) entry.2) := by
    simpa [Json.arePairs] using some
  have pairs : (entries.map fun entry => Json.ofPair (.string entry.1) entry.2).filterMap
      Json.pair? = entries.map fun entry => (.string entry.1, entry.2) := by
    rw [List.filterMap_map]
    exact congrFun List.filterMap_eq_map' entries
  rw [ofJson, ofJson, Conditions.ofJson_object once, Json.pairsOf, Conditions.ofJson_array,
    if_pos arePairs, pairs, Expr.ofJsonEntries_eq_map, List.map_map]
  refine ofConditions_congr ?_ ..
  intro entry member
  have key : (Expr.ofJsonKeyed .named (.string entry.1)).keyOfPair = .named entry.1 :=
    Expr.keyOfPair_ofJsonString (plain entry member)
  have value := ofPair_named (.named entry.1) (below entry member) (alike entry member)
  simp only [Function.comp_apply, key, value]

theorem ofJson_pairsOf_scoped :
    ofJson (.object [
        ("t__c", .object [
          ("not__between", .array [.number (.integer 1), .number (.integer 10)]),
          ("a,b", .object [("gt", .number (.integer 1))])]),
        ("name", .string "/^x/i")]) .or true =
      ofJson (.array [
        .array [.string "t__c", .object [
          ("not__between", .array [.number (.integer 1), .number (.integer 10)]),
          ("a,b", .object [("gt", .number (.integer 1))])]],
        .array [.string "name", .string "/^x/i"]]) .or true := by
  refine ofJson_pairsOf (by simp) (by decide) (by decide) ?_ .or true
  have alike : Json.ColumnsAlike [
      ("not__between", .array [.number (.integer 1), .number (.integer 10)]),
      ("a,b", .object [("gt", .number (.integer 1))])] := by
    intro name inner member
    simp only [List.mem_cons, List.not_mem_nil, Prod.mk.injEq, reduceCtorEq, and_false, or_false,
      false_or] at member
    rw [member.1]
    rfl
  rw [List.forall_mem_cons, List.forall_mem_singleton]
  exact ⟨alike, .scalar rfl⟩

/-- The key of a mapping below a column qualifies in a pair, and is taken as it is in an object. -/
theorem ofJson_pairsOf_ne_qualified :
    (Json.object [("t", .object [("a__b", .object [("gt", .number (.integer 1))])])]).keysDistinct =
        true ∧
      ofJson (.object [("t", .object [("a__b", .object [("gt", .number (.integer 1))])])])
          .and false ≠
        ofJson (.pairsOf [("t", .object [("a__b", .object [("gt", .number (.integer 1))])])])
          .and false := by
  have whole : ofJson (.object [("t", .object [("a__b", .object [("gt", .number (.integer 1))])])])
      .and false = .ok ⟨.gt,
        [.qualified (.identifier "t") (.identifier "a__b"), .value (.integer 1)]⟩ := rfl
  have cut : ofJson (.pairsOf [("t", .object [("a__b", .object [("gt", .number (.integer 1))])])])
      .and false = .ok ⟨.gt, [.qualified (.identifier "t")
        (.qualified (.identifier "a") (.identifier "b")), .value (.integer 1)]⟩ := rfl
  refine ⟨by decide, ?_⟩
  rw [whole, cut]
  simp

end Predicate

end SqlExpr
