import Mathlib.Data.List.Nodup
import SqlExpr.Conditions.OfJson
import SqlExpr.Predicate.Negation

/-!
Operands read from JSON. An object whose keys are distinct is a mapping with the same entries, an
array of pairs is a list that reads as ordered pairs.
-/

namespace SqlExpr

namespace Json

/-- The values directly in an array or an object. -/
def children : Json → List Json
  | array items => items
  | object entries => entries.map (·.2)
  | _ => []

theorem object_or_leaf (json : Json) :
    (∃ entries, json = object entries) ∨ ∀ entries, json ≠ object entries := by
  cases json
  case object entries => exact .inl ⟨entries, rfl⟩
  all_goals exact .inr (by simp)

theorem sizeOf_lt_of_mem_children {json child : Json} (member : child ∈ json.children) :
    sizeOf child < sizeOf json := by
  cases json <;> simp only [children, List.not_mem_nil] at member
  case array items =>
    have smaller := List.sizeOf_lt_of_mem member
    simp
    omega
  case object entries =>
    obtain ⟨⟨name, held⟩, inside, rfl⟩ := List.mem_map.mp member
    have smaller := List.sizeOf_lt_of_mem inside
    simp at smaller ⊢
    omega

/-- What holds of a value whenever it holds of the values in it holds of all. -/
theorem childrenInduction {motive : Json → Prop}
    (step : ∀ json, (∀ child ∈ json.children, motive child) → motive json) (json : Json) :
    motive json :=
  step json fun child _ => childrenInduction step child
termination_by sizeOf json
decreasing_by exact sizeOf_lt_of_mem_children ‹_›

mutual

/-- Each object in the value has each key once. -/
def keysDistinct : Json → Bool
  | array items => keysDistinctAll items
  | object entries => decide (entries.map (·.1)).Nodup && keysDistinctEntries entries
  | _ => true

def keysDistinctAll : List Json → Bool
  | [] => true
  | item :: rest => item.keysDistinct && keysDistinctAll rest

def keysDistinctEntries : List (String × Json) → Bool
  | [] => true
  | (_, held) :: rest => held.keysDistinct && keysDistinctEntries rest

end

theorem keysDistinct_array_iff {items : List Json} :
    (array items).keysDistinct = true ↔ ∀ item ∈ items, item.keysDistinct = true := by
  rw [keysDistinct]
  induction items with
  | nil => simp [keysDistinctAll]
  | cons item rest ih => rw [keysDistinctAll, Bool.and_eq_true, ih, List.forall_mem_cons]

theorem keysDistinct_object_iff {entries : List (String × Json)} :
    (object entries).keysDistinct = true ↔
      (entries.map (·.1)).Nodup ∧ ∀ entry ∈ entries, entry.2.keysDistinct = true := by
  have each : keysDistinctEntries entries = true ↔
      ∀ entry ∈ entries, entry.2.keysDistinct = true := by
    induction entries with
    | nil => simp [keysDistinctEntries]
    | cons entry rest ih => rw [keysDistinctEntries, Bool.and_eq_true, ih, List.forall_mem_cons]
  rw [keysDistinct, Bool.and_eq_true, decide_eq_true_iff, each]

theorem keysDistinct_child {json child : Json} (distinct : json.keysDistinct = true)
    (member : child ∈ json.children) : child.keysDistinct = true := by
  cases json <;> simp only [children, List.not_mem_nil] at member
  case array items => exact keysDistinct_array_iff.mp distinct child member
  case object entries =>
    obtain ⟨entry, inside, rfl⟩ := List.mem_map.mp member
    exact (keysDistinct_object_iff.mp distinct).2 entry inside

def isRegex (text : String) : Bool :=
  (Pattern.ofText text).isRegex

def pair? : Json → Option (Json × Json)
  | array [k, v] => some (k, v)
  | _ => none

def ofPair (k v : Json) : Json :=
  array [k, v]

@[simp] theorem pair?_ofPair (k v : Json) : (ofPair k v).pair? = some (k, v) := rfl

theorem eq_ofPair_of_pair? {json k v : Json} (found : json.pair? = some (k, v)) :
    json = ofPair k v := by
  unfold pair? at found
  split at found
  · cases found
    rfl
  · cases found

theorem mem_children_of_pair? {items : List Json} {pair : Json × Json}
    (member : pair ∈ items.filterMap pair?) :
    ∃ item ∈ items, pair.1 ∈ item.children ∧ pair.2 ∈ item.children := by
  obtain ⟨item, inside, found⟩ := List.mem_filterMap.mp member
  rw [eq_ofPair_of_pair? found] at inside
  exact ⟨_, inside, by simp [ofPair, children], by simp [ofPair, children]⟩

/-- An array that reads as conditions: not empty, and each item is an array of two. -/
def arePairs (items : List Json) : Bool :=
  !items.isEmpty && items.all (·.pair?.isSome)

end Json

/-! Mappings with distinct keys. -/

namespace Expr

theorem symbolicName?_of_same {a b : Expr} {name : String} (spelled : a.symbolicName? = some name)
    (same : a.same b = true) : b.symbolicName? = some name := by
  fun_induction symbolicName? a generalizing b name with
  | case1 text =>
    cases b <;> simp only [Expr.same, Bool.false_eq_true, beq_iff_eq] at same
    rw [← same]
    exact spelled
  | case2 text =>
    cases b <;> simp only [Expr.same, Bool.false_eq_true] at same
    rename_i v
    cases v <;> simp only [BEq.beq, Value.same, Bool.false_eq_true] at same
    rw [← of_decide_eq_true same]
    exact spelled
  | case3 table column left right =>
    cases b <;> simp only [Expr.same, Bool.false_eq_true, Bool.and_eq_true] at same
    simp only [bind, Option.bind_eq_some_iff, pure, Option.some.injEq] at spelled
    obtain ⟨first, ofTable, second, ofColumn, rfl⟩ := spelled
    simp [symbolicName?, left ofTable same.1, right ofColumn same.2]
  | case4 => cases spelled

end Expr

namespace Conditions

theorem replace_of_fresh {key held : Expr} {pairs : List (Expr × Expr)}
    (fresh : ∀ pair ∈ pairs, (pair.1 == key) = false) :
    replace key held pairs = pairs ++ [(key, held)] := by
  induction pairs with
  | nil => rfl
  | cons pair rest ih =>
    rw [List.forall_mem_cons] at fresh
    simp [replace, fresh.1, ih fresh.2]

theorem ofList_mapping {pairs : List (Expr × Expr)}
    (distinct : pairs.Pairwise fun a b => (a.1 == b.1) = false) :
    ofList .mapping pairs = ⟨.mapping, pairs⟩ := by
  have grown (kept : List (Expr × Expr)) :
      (kept ++ pairs).Pairwise (fun a b => (a.1 == b.1) = false) →
        pairs.foldl (fun (c : Conditions) pair => c.insert pair.1 pair.2) ⟨.mapping, kept⟩ =
          ⟨.mapping, kept ++ pairs⟩ := by
    clear distinct
    induction pairs generalizing kept with
    | nil => simp
    | cons pair rest ih =>
      intro distinct
      have fresh : ∀ other ∈ kept, (other.1 == pair.1) = false := by
        intro other member
        exact (List.pairwise_append.mp distinct).2.2 other member pair (by simp)
      have next := ih (kept ++ [pair]) (by simpa using distinct)
      simpa [insert, replace_of_fresh fresh] using next
  simpa [ofList, empty] using grown [] (by simpa using distinct)

/-- Keys that spell different names do not replace one another. -/
theorem ofList_of_names {entries : List (Expr × Expr)} {names : List String}
    (spelled : entries.map (·.1.symbolicName?) = names.map some) (distinct : names.Nodup) :
    ofList .mapping entries = ⟨.mapping, entries⟩ := by
  have apart : (entries.map (·.1.symbolicName?)).Nodup := by
    rw [spelled]
    exact distinct.map fun _ _ => Option.some.inj
  refine ofList_mapping ((List.pairwise_map.mp apart).imp_of_mem ?_)
  intro a b inside _ different
  have named : a.1.symbolicName? ∈ names.map some := by
    rw [← spelled]
    exact List.mem_map_of_mem inside
  obtain ⟨name, _, own⟩ := List.mem_map.mp named
  rw [Bool.eq_false_iff]
  intro same
  rw [← own, Expr.symbolicName?_of_same own.symm same] at different
  exact different rfl

theorem ofList_kind (entries : List (Expr × Expr)) :
    (ofList .mapping entries).kind = .mapping := by
  have kept (c : Conditions) (mapping : c.kind = .mapping) :
      (entries.foldl (fun (c : Conditions) pair => c.insert pair.1 pair.2) c).kind = .mapping := by
    induction entries generalizing c with
    | nil => exact mapping
    | cons entry rest ih => exact ih _ (by simp [insert, mapping])
  exact kept _ rfl

end Conditions

/-- Rules for keys under which a key spells the name that it is made of. -/
def SpellsNames (key : String → Expr) : Prop :=
  ∀ name, (key name).symbolicName? = some name

namespace Expr

theorem spellsNames_named : SpellsNames named :=
  symbolicName?_named

theorem spellsNames_identifier : SpellsNames identifier :=
  fun _ => rfl

theorem ofJsonString_eq (text : String) :
    ofJsonString text =
      if Json.isRegex text then pattern (Pattern.ofText text) else value (.string text) := by
  rw [ofJsonString, Json.isRegex]
  split <;> rename_i found <;> rw [found] <;> rfl

theorem keyOfPair_ofJsonString {text : String} (plain : Json.isRegex text = false) :
    (ofJsonString text).keyOfPair = named text := by
  rw [ofJsonString_eq, plain]
  rfl

theorem ofJsonItems_eq_map (key : String → Expr) (items : List Json) :
    ofJsonItems key items = items.map (ofJsonKeyed key) := by
  induction items with
  | nil => rfl
  | cons item rest ih => rw [ofJsonItems, ih, List.map_cons]

theorem ofJsonEntries_eq_map (key : String → Expr) (entries : List (String × Json)) :
    ofJsonEntries key entries =
      entries.map fun entry => (key entry.1, ofJsonKeyed identifier entry.2) := by
  induction entries with
  | nil => rfl
  | cons entry rest ih => rw [ofJsonEntries, ih, List.map_cons]

theorem ofJsonKeyed_array (key : String → Expr) (items : List Json) :
    ofJsonKeyed key (.array items) = list (items.map (ofJsonKeyed key)) := by
  rw [ofJsonKeyed, ofJsonItems_eq_map]

theorem ofJsonKeyed_object {key : String → Expr} (spelled : SpellsNames key)
    {entries : List (String × Json)} (distinct : (entries.map (·.1)).Nodup) :
    ofJsonKeyed key (.object entries) = conditions .mapping (ofJsonEntries key entries) := by
  have names : (ofJsonEntries key entries).map (·.1.symbolicName?) =
      (entries.map (·.1)).map some := by
    rw [ofJsonEntries_eq_map, List.map_map, List.map_map]
    exact List.map_congr_left fun entry _ => spelled entry.1
  rw [ofJsonKeyed, Conditions.ofList_of_names names distinct]
  rfl

theorem ofJsonKeyed_ne_mapping {key : String → Expr} {json : Json}
    (scalar : ∀ inner, json ≠ .object inner) (operators : List (Expr × Expr)) :
    ofJsonKeyed key json ≠ conditions .mapping operators := by
  cases json
  case object inner => exact absurd rfl (scalar inner)
  case string text =>
    rw [ofJsonKeyed, ofJsonString]
    split <;> simp
  all_goals simp [ofJsonKeyed]

/-! Lists of pairs. -/

theorem pair?_ofJsonKeyed (key : String → Expr) (json : Json) :
    (ofJsonKeyed key json).pair? =
      json.pair?.map fun pair => (ofJsonKeyed key pair.1, ofJsonKeyed key pair.2) := by
  cases json
  case array items =>
    rw [ofJsonKeyed_array]
    rcases items with _ | ⟨k, _ | ⟨v, _ | ⟨_, _⟩⟩⟩ <;> rfl
  case string text =>
    rw [ofJsonKeyed, ofJsonString]
    split <;> rfl
  all_goals
    rw [ofJsonKeyed]
    rfl

theorem isPair_eq_isSome_pair? (e : Expr) : e.isPair = e.pair?.isSome := by
  unfold isPair pair?
  split <;> rfl

theorem arePairs_ofJson (key : String → Expr) (items : List Json) :
    arePairs (items.map (ofJsonKeyed key)) = Json.arePairs items := by
  simp [arePairs, Json.arePairs, Function.comp_def, isPair_eq_isSome_pair?, pair?_ofJsonKeyed]

theorem filterMap_pair?_ofJson (key : String → Expr) (items : List Json) :
    (items.map (ofJsonKeyed key)).filterMap pair? =
      (items.filterMap Json.pair?).map fun pair =>
        (ofJsonKeyed key pair.1, ofJsonKeyed key pair.2) := by
  rw [List.filterMap_map, List.map_filterMap]
  exact List.filterMap_congr fun item _ => pair?_ofJsonKeyed key item

end Expr

namespace Conditions

theorem ofJson_object {entries : List (String × Json)}
    (distinct : (entries.map (·.1)).Nodup) :
    ofJson (.object entries) = .ok ⟨.mapping, Expr.ofJsonEntries .named entries⟩ := by
  rw [ofJson, Expr.ofJson, Expr.ofJsonKeyed_object Expr.spellsNames_named distinct]
  rfl

theorem ofJson_array (items : List Json) :
    ofJson (.array items) =
      if Json.arePairs items then
        .ok ⟨.pairs, (items.filterMap Json.pair?).map fun pair =>
          ((Expr.ofJsonKeyed .named pair.1).keyOfPair, Expr.ofJsonKeyed .named pair.2)⟩
      else .error (.invalidArgument .notConditions) := by
  rw [ofJson, Expr.ofJson, Expr.ofJsonKeyed_array, ofSpecifier?, Expr.arePairs_ofJson]
  cases Json.arePairs items with
  | false => rfl
  | true =>
    simp only [if_true, Expr.filterMap_pair?_ofJson, List.map_map]
    rfl

end Conditions

def Predicate.ofJson (json : Json) (connective : Operator) (negate : Bool) :
    Except Error Predicate := do
  ofConditions (← Conditions.ofJson json) connective negate

end SqlExpr
