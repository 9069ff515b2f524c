import SqlExpr.Proofs.Equality
import SqlExpr.Proofs.JsonOperands

/-!
Reading JSON loses nothing: what is read from a value tells which value it is, and an object keeps all
of its entries in their order.
-/

namespace SqlExpr

namespace Pattern

/-- The text that a pattern is read from. -/
def written : Pattern → String
  | literal text _ => text
  | regex source true => "/" ++ source ++ "/i"
  | regex source false => "/" ++ source ++ "/"

theorem written_ofText (text : String) : (ofText text).written = text := by
  apply String.toList_injective
  unfold ofText
  split
  · rename_i body slashed
    split
    · rename_i source ended
      have parts := List.reverse_eq_iff.mp ended
      simp [written, slashed, parts]
    · rename_i source ended
      have parts := List.reverse_eq_iff.mp ended
      simp [written, slashed, parts]
    · rfl
  · rfl

end Pattern

def Value.unread : Value → Json
  | boolean truth => .bool truth
  | integer n => .number (.integer n)
  | float x => .number (.float x)
  | string text => .string text
  | null | blob _ => .null

namespace Expr

mutual

/-- The JSON value that an operand is read from. -/
def unread : Expr → Json
  | value v => v.unread
  | pattern p => .string p.written
  | list items => .array (unreadAll items)
  | conditions _ pairs => .object (unreadPairs pairs)
  | _ => .null

def unreadAll : List Expr → List Json
  | [] => []
  | e :: rest => e.unread :: unreadAll rest

def unreadPairs : List (Expr × Expr) → List (String × Json)
  | [] => []
  | (k, v) :: rest => (k.symbolicName?.getD "", v.unread) :: unreadPairs rest

end

theorem unreadAll_eq_map (items : List Expr) : unreadAll items = items.map unread := by
  induction items with
  | nil => rw [unreadAll, List.map_nil]
  | cons e rest ih => rw [unreadAll, ih, List.map_cons]

theorem unreadPairs_eq_map (pairs : List (Expr × Expr)) :
    unreadPairs pairs = pairs.map fun (k, v) => (k.symbolicName?.getD "", v.unread) := by
  induction pairs with
  | nil => rw [unreadPairs, List.map_nil]
  | cons pair rest ih => rw [unreadPairs, ih, List.map_cons]

theorem unread_ofJsonKeyed {key : String → Expr} (spelled : SpellsNames key) {json : Json}
    (distinct : json.keysDistinct = true) : (ofJsonKeyed key json).unread = json := by
  induction json using Json.childrenInduction generalizing key with
  | step json ih =>
    have below {child : Json} (member : child ∈ json.children) : child.keysDistinct = true :=
      Json.keysDistinct_child distinct member
    cases json
    case null | bool =>
      rw [ofJsonKeyed, unread]
      rfl
    case number n =>
      rw [ofJsonKeyed, unread]
      cases n <;> rfl
    case string text =>
      rw [ofJsonKeyed, ofJsonString_eq]
      split
      · rw [unread, Pattern.written_ofText]
      · rw [unread, Value.unread]
    case array items =>
      have each : ∀ item ∈ items, (unread ∘ ofJsonKeyed key) item = id item := by
        intro item member
        exact ih item member spelled (below member)
      rw [ofJsonKeyed_array, unread, unreadAll_eq_map, List.map_map, List.map_congr_left each,
        List.map_id]
    case object entries =>
      have once := (Json.keysDistinct_object_iff.mp distinct).1
      have each : ∀ entry ∈ entries, ((key entry.1).symbolicName?.getD "",
          (ofJsonKeyed identifier entry.2).unread) = id entry := by
        intro entry member
        have inside : entry.2 ∈ (Json.object entries).children := List.mem_map_of_mem member
        rw [spelled, ih entry.2 inside spellsNames_identifier (below inside)]
        rfl
      rw [ofJsonKeyed_object spelled once, unread, unreadPairs_eq_map, ofJsonEntries_eq_map,
        List.map_map]
      simp only [Function.comp_def]
      rw [List.map_congr_left each, List.map_id]

theorem ofJsonKeyed_injective {key : String → Expr} (spelled : SpellsNames key) {json other : Json}
    (distinct : json.keysDistinct = true) (distinct' : other.keysDistinct = true)
    (same : ofJsonKeyed key json = ofJsonKeyed key other) : json = other := by
  have recovered := congrArg unread same
  rwa [unread_ofJsonKeyed spelled distinct, unread_ofJsonKeyed spelled distinct'] at recovered

end Expr

/-! Whole numbers are compared exactly. -/

/-- Every number in the value is a whole number of 64 bits. -/
inductive Json.WholeNumbers : Json → Prop
  | intro {json : Json} : (∀ x, json ≠ number (.float x)) →
      (∀ child ∈ json.children, WholeNumbers child) → WholeNumbers json

namespace Expr

theorem floatless_identifier (name : String) : (identifier name).Throughout isFloatless :=
  .leaf trivial rfl

theorem floatless_named (name : String) : (named name).Throughout isFloatless := by
  unfold named
  split
  · split
    · exact floatless_identifier name
    · refine .intro trivial ?_
      simp [children, floatless_identifier]
  · exact floatless_identifier name

theorem floatless_ofJsonKeyed {key : String → Expr} (spelled : SpellsNames key)
    (keys : ∀ name, (key name).Throughout isFloatless) {json : Json}
    (distinct : json.keysDistinct = true) (whole : json.WholeNumbers) :
    (ofJsonKeyed key json).Throughout isFloatless := by
  induction whole generalizing key with
  | @intro json exact inside ih =>
    have below {child : Json} (member : child ∈ json.children) : child.keysDistinct = true :=
      Json.keysDistinct_child distinct member
    cases json
    case null | bool => exact .leaf rfl rfl
    case number n =>
      cases n with
      | integer n => exact .leaf rfl rfl
      | float x => exact absurd rfl (exact x)
    case string text =>
      rw [ofJsonKeyed, ofJsonString_eq]
      split
      · exact .leaf trivial rfl
      · exact .leaf rfl rfl
    case array items =>
      rw [ofJsonKeyed_array]
      refine .intro trivial ?_
      intro child member
      obtain ⟨item, within, rfl⟩ := List.mem_map.mp member
      exact ih item within spelled keys (below within)
    case object entries =>
      have once := (Json.keysDistinct_object_iff.mp distinct).1
      rw [ofJsonKeyed_object spelled once, ofJsonEntries_eq_map]
      refine .intro trivial ?_
      intro child member
      obtain ⟨pair, inPairs, side⟩ := mem_sides.mp member
      obtain ⟨entry, inEntries, rfl⟩ := List.mem_map.mp inPairs
      have within : entry.2 ∈ (Json.object entries).children := List.mem_map_of_mem inEntries
      rcases side with rfl | rfl
      · exact keys entry.1
      · exact ih entry.2 within spellsNames_identifier floatless_identifier (below within)

theorem ofJson_beq_iff {json other : Json} (distinct : json.keysDistinct = true)
    (distinct' : other.keysDistinct = true) (whole : json.WholeNumbers) :
    (ofJson json == ofJson other) = true ↔ json = other := by
  have floatless := floatless_ofJsonKeyed spellsNames_named floatless_named distinct whole
  have compared : (ofJson json == ofJson other) = true ↔ ofJson json = ofJson other :=
    compares_of_floatless floatless (ofJson other)
  rw [compared]
  constructor
  · exact ofJsonKeyed_injective spellsNames_named distinct distinct'
  · rintro rfl
    rfl

end Expr

/-! Places in a value, as positions in the arrays and objects around them from the outside in. -/

namespace Json

def at? : List Nat → Json → Option Json
  | [], json => some json
  | i :: path, json => json.children[i]?.bind (at? path)

theorem keysDistinct_of_at? {json value : Json} {path : List Nat}
    (distinct : json.keysDistinct = true) (found : json.at? path = some value) :
    value.keysDistinct = true := by
  induction path generalizing json with
  | nil =>
    cases found
    exact distinct
  | cons i path ih =>
    obtain ⟨child, inside, below⟩ := Option.bind_eq_some_iff.mp found
    exact ih (keysDistinct_child distinct (List.mem_of_getElem? inside)) below

def isObject : Json → Bool
  | object _ => true
  | _ => false

/-- An object is around the place. -/
def isBelowObject : List Nat → Json → Bool
  | [], _ => false
  | i :: path, json => json.isObject || json.children[i]?.any (isBelowObject path)

end Json

namespace Expr

def held : Expr → List Expr
  | list items => items
  | conditions _ pairs => pairs.map (·.2)
  | _ => []

def at? : List Nat → Expr → Option Expr
  | [], e => some e
  | i :: path, e => e.held[i]?.bind (at? path)

/-- Keys name columns in outermost objects only. -/
def keyRule (belowObject : Bool) : String → Expr :=
  if belowObject then identifier else named

theorem spellsNames_keyRule (belowObject : Bool) : SpellsNames (keyRule belowObject) := by
  cases belowObject
  · exact spellsNames_named
  · exact spellsNames_identifier

theorem held_ofJsonKeyed {json : Json} (distinct : json.keysDistinct = true) (belowObject : Bool) :
    (ofJsonKeyed (keyRule belowObject) json).held =
      json.children.map (ofJsonKeyed (keyRule (belowObject || json.isObject))) := by
  cases json
  case array items =>
    rw [ofJsonKeyed_array]
    simp [held, Json.children, Json.isObject]
  case object entries =>
    have once := (Json.keysDistinct_object_iff.mp distinct).1
    rw [ofJsonKeyed_object (spellsNames_keyRule belowObject) once, ofJsonEntries_eq_map]
    simp [held, Json.children, Json.isObject, keyRule]
  case string text =>
    rw [ofJsonKeyed, ofJsonString_eq]
    split <;> rfl
  all_goals rfl

theorem at?_ofJsonKeyed {json : Json} (distinct : json.keysDistinct = true) (belowObject : Bool)
    (path : List Nat) :
    (ofJsonKeyed (keyRule belowObject) json).at? path =
      (json.at? path).map (ofJsonKeyed (keyRule (belowObject || json.isBelowObject path))) := by
  induction path generalizing json belowObject with
  | nil => simp [at?, Json.at?, Json.isBelowObject]
  | cons i path ih =>
    rw [at?, held_ofJsonKeyed distinct, List.getElem?_map, Json.at?, Json.isBelowObject]
    cases found : json.children[i]? with
    | none => rfl
    | some child =>
      have below := Json.keysDistinct_child distinct (List.mem_of_getElem? found)
      simp [ih below, Bool.or_assoc]

/-- Values whose numbers are whole are told apart by what is read from them, and at any depth an object
is read to a mapping with one pair for each entry, in the order of the entries. -/
theorem ofJson_faithful {json : Json} (distinct : json.keysDistinct = true) :
    (∀ other : Json, other.keysDistinct = true → json.WholeNumbers →
        ((ofJson json == ofJson other) = true ↔ json = other)) ∧
      ∀ path entries, json.at? path = some (.object entries) →
        (ofJson json).at? path = some (conditions .mapping (entries.map fun entry =>
          (keyRule (json.isBelowObject path) entry.1, ofJsonKeyed identifier entry.2))) := by
  constructor
  · intro other distinct' whole
    exact ofJson_beq_iff distinct distinct' whole
  · intro path entries found
    have once := (Json.keysDistinct_object_iff.mp (Json.keysDistinct_of_at? distinct found)).1
    have read := at?_ofJsonKeyed distinct false path
    rw [found, Option.map_some, Bool.false_or, ofJsonKeyed_object (spellsNames_keyRule _) once,
      ofJsonEntries_eq_map] at read
    exact read

def scopedEntries : List (String × Json) :=
  [("t__c", .object [("not__in", .array [.string "/a/", .number (.integer 1)])]),
    ("__c", .string "/a/i")]

theorem wholeNumbers_scopedEntries : (Json.object scopedEntries).WholeNumbers := by
  have text (source : String) : (Json.string source).WholeNumbers :=
    .intro (by simp) (by simp [Json.children])
  have number : (Json.number (.integer 1)).WholeNumbers :=
    .intro (by simp) (by simp [Json.children])
  have listed : (Json.array [.string "/a/", .number (.integer 1)]).WholeNumbers :=
    .intro (by simp) (by simp [Json.children, text, number])
  have operators : (Json.object
      [("not__in", .array [.string "/a/", .number (.integer 1)])]).WholeNumbers :=
    .intro (by simp) (by simp [Json.children, listed])
  exact .intro (by simp) (by simp [scopedEntries, Json.children, operators, text])

theorem ofJson_faithful_scoped :
    ¬(ofJson (.object scopedEntries) == ofJson (.object scopedEntries.reverse)) = true ∧
      (ofJson (.object scopedEntries)).at? [0] =
        some (conditions .mapping [(.identifier "not__in",
          .list [.pattern (.regex "a" false), .value (.integer 1)])]) := by
  have distinct : (Json.object scopedEntries).keysDistinct = true := by decide
  obtain ⟨apart, kept⟩ := ofJson_faithful distinct
  constructor
  · rw [apart _ (by decide) wholeNumbers_scopedEntries]
    simp [scopedEntries]
  · rw [kept [0] _ rfl]
    rfl

end Expr

end SqlExpr
