import SqlExpr.Predicate.Comparison
import SqlExpr.Proofs.JsonOperands

/-!
Places of a JSON value at which a regular expression is not matched: in a list of values, under an
operator that does not match, and in conditions that stand as an operand.
-/

namespace SqlExpr

/-- What is done with a value. -/
inductive ValueUse where
  /-- It is an operand; conditions in its place stand for their predicate. -/
  | compared
  /-- It is matched; a pattern in its place becomes a string. -/
  | matched
  /-- The items of a list are matched, or the one value. -/
  | candidates
  /-- It stays as it is. -/
  | kept
  deriving DecidableEq

def NamedOperator.valueUse : NamedOperator → ValueUse
  | .matching .. => .candidates
  | .between _ => .kept
  | .plain op => if op.isMembership then .kept else .compared

def valueUseOf (name : String) : ValueUse :=
  match NamedOperator.ofName name with
  | .ok named => named.valueUse
  | .error _ => .kept

/-- Whether a pattern is left of the subject of a condition, by what is done with it. -/
structure Subject where
  compared : Bool
  matched : Bool
  qualifying : Bool

namespace Subject

def column : Subject :=
  ⟨false, false, false⟩

/-- The columns that the subject qualifies. -/
def below (s : Subject) : Subject :=
  ⟨s.qualifying, s.qualifying, s.qualifying⟩

/-- The subject of an operator that uses its value in the given way. -/
def under (s : Subject) : ValueUse → Bool
  | .compared | .kept => s.compared
  | .matched | .candidates => s.matched

end Subject

namespace Json

mutual

/-- A regular expression is left of the value as a pattern. -/
def leavesRegex (use : ValueUse) : Json → Bool
  | string text =>
    match use with
    | .compared | .kept => isRegex text
    | .matched | .candidates => false
  | array items =>
    match use with
    | .compared | .matched =>
      if arePairs items then pairsLeaveRegex items else anyLeavesRegex .kept items
    | .candidates => anyLeavesRegex .matched items
    | .kept => anyLeavesRegex .kept items
  | object entries =>
    match use with
    | .compared | .matched | .candidates => entriesLeaveRegex entries
    | .kept => anyEntryLeavesRegex entries
  | null | bool _ | number _ => false

def anyLeavesRegex (use : ValueUse) : List Json → Bool
  | [] => false
  | item :: rest => item.leavesRegex use || anyLeavesRegex use rest

def anyEntryLeavesRegex : List (String × Json) → Bool
  | [] => false
  | (_, held) :: rest => held.leavesRegex .kept || anyEntryLeavesRegex rest

/-- Entries as conditions on the columns that their keys name. -/
def entriesLeaveRegex : List (String × Json) → Bool
  | [] => false
  | (_, held) :: rest => conditionLeavesRegex .column held || entriesLeaveRegex rest

/-- Pairs as conditions on their keys. -/
def pairsLeaveRegex : List Json → Bool
  | [] => false
  | array [k, v] :: rest =>
    conditionLeavesRegex
        ⟨k.leavesRegex .compared, k.leavesRegex .matched, k.leavesRegex .kept⟩ v ||
      pairsLeaveRegex rest
  | _ :: rest => pairsLeaveRegex rest

/-- The condition that a value puts on a subject. -/
def conditionLeavesRegex (s : Subject) : Json → Bool
  | string text => if isRegex text then s.matched else s.compared
  | array items => s.compared || anyLeavesRegex .kept items
  | object operators => operatorsLeaveRegex s operators
  | null | bool _ | number _ => s.compared

def operatorsLeaveRegex (s : Subject) : List (String × Json) → Bool
  | [] => false
  | (_, object inner) :: rest => operatorsLeaveRegex s.below inner || operatorsLeaveRegex s rest
  | (name, held) :: rest =>
    s.under (valueUseOf name) || held.leavesRegex (valueUseOf name) || operatorsLeaveRegex s rest

end

theorem anyLeavesRegex_iff {use : ValueUse} {items : List Json} :
    anyLeavesRegex use items = true ↔ ∃ item ∈ items, item.leavesRegex use = true := by
  induction items with
  | nil => simp [anyLeavesRegex]
  | cons item rest ih => simp only [anyLeavesRegex, Bool.or_eq_true, ih, List.exists_mem_cons_iff]

theorem anyEntryLeavesRegex_iff {entries : List (String × Json)} :
    anyEntryLeavesRegex entries = true ↔ ∃ entry ∈ entries, entry.2.leavesRegex .kept = true := by
  induction entries with
  | nil => simp [anyEntryLeavesRegex]
  | cons entry rest ih =>
    simp only [anyEntryLeavesRegex, Bool.or_eq_true, ih, List.exists_mem_cons_iff]

theorem entriesLeaveRegex_iff {entries : List (String × Json)} :
    entriesLeaveRegex entries = true ↔
      ∃ entry ∈ entries, conditionLeavesRegex .column entry.2 = true := by
  induction entries with
  | nil => simp [entriesLeaveRegex]
  | cons entry rest ih =>
    simp only [entriesLeaveRegex, Bool.or_eq_true, ih, List.exists_mem_cons_iff]

/-- The key of a pair as the subject of the condition that the pair is. -/
def subject (key : Json) : Subject :=
  ⟨key.leavesRegex .compared, key.leavesRegex .matched, key.leavesRegex .kept⟩

theorem pairsLeaveRegex_iff {items : List Json} :
    pairsLeaveRegex items = true ↔
      ∃ pair ∈ items.filterMap pair?, conditionLeavesRegex pair.1.subject pair.2 = true := by
  induction items with
  | nil => simp [pairsLeaveRegex]
  | cons item rest ih =>
    cases found : item.pair? with
    | some pair =>
      rw [eq_ofPair_of_pair? found, ofPair]
      simp only [pairsLeaveRegex, Bool.or_eq_true, ih, List.filterMap_cons, pair?,
        List.exists_mem_cons_iff, subject]
    | none =>
      have skipped : pairsLeaveRegex (item :: rest) = pairsLeaveRegex rest := by
        unfold pair? at found
        split at found
        · cases found
        · rename_i other
          rw [pairsLeaveRegex]
          exact other
      rw [skipped, ih, List.filterMap_cons, found]

theorem operatorsLeaveRegex_mapping (s : Subject) (name : String)
    (inner rest : List (String × Json)) :
    operatorsLeaveRegex s ((name, object inner) :: rest) =
      (operatorsLeaveRegex s.below inner || operatorsLeaveRegex s rest) := rfl

theorem operatorsLeaveRegex_leaf (s : Subject) (name : String) {held : Json}
    (leaf : ∀ inner, held ≠ object inner) (rest : List (String × Json)) :
    operatorsLeaveRegex s ((name, held) :: rest) =
      (s.under (valueUseOf name) || held.leavesRegex (valueUseOf name) ||
        operatorsLeaveRegex s rest) := by
  cases held <;> first | exact absurd rfl (leaf _) | rfl

theorem operatorsLeaveRegex_iff {s : Subject} {operators : List (String × Json)} :
    operatorsLeaveRegex s operators = true ↔
      ∃ entry ∈ operators, operatorsLeaveRegex s [entry] = true := by
  have none : operatorsLeaveRegex s [] = false := rfl
  induction operators with
  | nil => simp [none]
  | cons entry rest ih =>
    have split : operatorsLeaveRegex s (entry :: rest) =
        (operatorsLeaveRegex s [entry] || operatorsLeaveRegex s rest) := by
      obtain ⟨name, held⟩ := entry
      rcases held.object_or_leaf with ⟨inner, rfl⟩ | leaf
      · rw [operatorsLeaveRegex_mapping, operatorsLeaveRegex_mapping, none, Bool.or_false]
      · rw [operatorsLeaveRegex_leaf s name leaf, operatorsLeaveRegex_leaf s name leaf, none,
          Bool.or_false]
    simp only [split, Bool.or_eq_true, ih, List.exists_mem_cons_iff]

def candidates : Json → List Json
  | array items => items
  | json => [json]

theorem mem_candidates {json item : Json} (member : item ∈ json.candidates) :
    item = json ∨ item ∈ json.children := by
  unfold candidates at member
  split at member
  · exact .inr member
  · exact .inl (List.mem_singleton.mp member)

theorem leavesRegex_candidates_iff {json : Json} (leaf : ∀ inner, json ≠ object inner) :
    json.leavesRegex .candidates = true ↔
      ∃ item ∈ json.candidates, item.leavesRegex .matched = true := by
  cases json
  case array items => exact anyLeavesRegex_iff
  case object inner => exact absurd rfl (leaf inner)
  all_goals simp [candidates, leavesRegex]

/-- The key is a string between slashes. -/
def isRegexString : Json → Bool
  | string text => isRegex text
  | _ => false

def pairKeys : Json → List Json
  | array items => (items.filterMap pair?).map (·.1)
  | _ => []

end Json

end SqlExpr
