import SqlExpr.Proofs.LeafPaths
import SqlExpr.Proofs.PatternNodes
import SqlExpr.Proofs.RegexPlaces

/-!
Regular expressions in JSON conditions. One that a column is compared with becomes a match, one in a
list of values or under an operator that does not match stays a pattern. Main statement: a predicate
holds a pattern exactly if the conditions have a regular expression at such a place.
-/

namespace SqlExpr

namespace Expr

theorem not_holdsPattern_of_symbolicName? {e : Expr} {name : String}
    (spelled : e.symbolicName? = some name) : ¬e.HoldsPattern := by
  fun_induction symbolicName? e generalizing name with
  | case1 text => exact not_holdsPattern_of_childless (by simp) rfl
  | case2 text => exact not_holdsPattern_of_childless (by simp) rfl
  | case3 table column left right =>
    simp only [bind, Option.bind_eq_some_iff] at spelled
    obtain ⟨_, ofTable, _, ofColumn, _⟩ := spelled
    rw [holdsPattern_iff (by simp)]
    simpa [children] using ⟨left ofTable, right ofColumn⟩
  | case4 => cases spelled

theorem isSpecifier_of_symbolicName? {e : Expr} {name : String}
    (spelled : e.symbolicName? = some name) : e.isSpecifier = false := by
  cases e <;> first | rfl | cases spelled

theorem holdsPattern_ofJsonKeyed {key : String → Expr} (spelled : SpellsNames key) {json : Json}
    (distinct : json.keysDistinct = true) :
    (ofJsonKeyed key json).HoldsPattern ↔ json.leavesRegex .kept = true := by
  induction json using Json.childrenInduction generalizing key with
  | step json ih =>
    cases json
    case string text =>
      rw [ofJsonKeyed, ofJsonString_eq, Json.leavesRegex]
      split
      · rename_i regex
        simpa [regex] using HoldsPattern.here _
      · rename_i plain
        simpa [plain] using not_holdsPattern_of_childless (by simp) rfl
    case array items =>
      rw [Json.keysDistinct_array_iff] at distinct
      rw [ofJsonKeyed_array, holdsPattern_iff (by simp), Json.leavesRegex, Json.anyLeavesRegex_iff]
      simp only [children, List.mem_map, exists_exists_and_eq_and]
      exact exists_congr fun item => and_congr_right fun member =>
        ih item member spelled (distinct item member)
    case object entries =>
      obtain ⟨once, below⟩ := Json.keysDistinct_object_iff.mp distinct
      rw [ofJsonKeyed_object spelled once, holdsPattern_iff (by simp), Json.leavesRegex,
        Json.anyEntryLeavesRegex_iff, ofJsonEntries_eq_map]
      simp only [children, mem_sides, List.mem_map, exists_exists_and_eq_and]
      have each (entry : String × Json) (member : entry ∈ entries) :=
        ih entry.2 (List.mem_map_of_mem member) spellsNames_identifier (below entry member)
      constructor
      · rintro ⟨_, ⟨entry, member, rfl | rfl⟩, held⟩
        · exact absurd held (not_holdsPattern_of_symbolicName? (spelled entry.1))
        · exact ⟨entry, member, (each entry member).mp held⟩
      · rintro ⟨entry, member, left⟩
        exact ⟨_, ⟨entry, member, .inr rfl⟩, (each entry member).mpr left⟩
    all_goals
      rw [ofJsonKeyed, Json.leavesRegex]
      simpa using not_holdsPattern_of_childless (by simp) rfl

/-! Columns, which their names spell, and the columns that a key stands for. -/

theorem symbolicName?_qualifierPart {e : Expr} {name : String}
    (spelled : e.symbolicName? = some name) : e.qualifierPart.symbolicName? = some name := by
  unfold qualifierPart
  split
  · exact spelled
  · exact spelled

theorem exists_symbolicName?_qualify {table column : Expr} {name name' : String}
    (first : table.symbolicName? = some name) (second : column.symbolicName? = some name') :
    ∃ whole, (qualify table column).symbolicName? = some whole := by
  simp [qualify, symbolicName?, symbolicName?_qualifierPart first, symbolicName?_qualifierPart second]

theorem symbolicName?_columns {key column : Expr} {name : String}
    (spelled : key.symbolicName? = some name) (member : column ∈ key.columns) :
    ∃ whole, column.symbolicName? = some whole := by
  rcases mem_columns member with rfl | ⟨part, rfl⟩ | ⟨table, names, part, rfl, rfl⟩
  · exact ⟨name, spelled⟩
  · exact ⟨part, symbolicName?_named part⟩
  · simp only [symbolicName?, bind, Option.bind_eq_some_iff] at spelled
    obtain ⟨first, ofTable, _⟩ := spelled
    exact exists_symbolicName?_qualify ofTable rfl

theorem holdsPattern_qualify {table column : Expr} {name : String}
    (spelled : column.symbolicName? = some name) :
    (qualify table column).HoldsPattern ↔ table.HoldsPattern := by
  have part : table.qualifierPart.HoldsPattern ↔ table.HoldsPattern := by
    unfold qualifierPart
    split
    · simp [holdsPattern_iff, children]
    · rfl
  rw [qualify, holdsPattern_iff (by simp)]
  simp [children, part,
    not_holdsPattern_of_symbolicName? (symbolicName?_qualifierPart spelled)]

end Expr

/-! What is left of a subject. -/

/-- The subject says what is left of the expression for each use. -/
structure Subject.Describes (s : Subject) (e : Expr) : Prop where
  compared : e.Leaves (s.compared = true)
  matched : (Predicate.matchText e).Leaves (s.matched = true)
  qualifying : e.HoldsPattern ↔ s.qualifying = true

namespace Subject

theorem describes_of_plain {e : Expr} (plain : e.isSpecifier = false) (other : ∀ p, e ≠ .pattern p)
    {held : Bool} (h : e.HoldsPattern ↔ held = true) :
    (⟨held, held, held⟩ : Subject).Describes e := by
  have itself : Predicate.matchText e = e := by
    unfold Predicate.matchText
    split
    · exact absurd rfl (other _)
    · rfl
  have leaves : e.Leaves (held = true) := Expr.leaves_of_plain plain h
  exact ⟨leaves, by rwa [itself], h⟩

theorem describes_column {e : Expr} {name : String} (spelled : e.symbolicName? = some name) :
    column.Describes e := by
  refine describes_of_plain (Expr.isSpecifier_of_symbolicName? spelled) ?_ ?_
  · rintro p rfl
    cases spelled
  · simpa using Expr.not_holdsPattern_of_symbolicName? spelled

theorem Describes.eq_column {s : Subject} {e : Expr} {name : String} (h : s.Describes e)
    (spelled : e.symbolicName? = some name) : s = column := by
  have free := Expr.not_holdsPattern_of_symbolicName? spelled
  have read := Expr.resolve_of_isSpecifier_eq_false (Expr.isSpecifier_of_symbolicName? spelled)
  have itself : Predicate.matchText e = e := by
    cases e <;> first | rfl | cases spelled
  have matched := h.matched e (by rw [itself, read])
  have compared := h.compared e read
  have qualifying := h.qualifying
  simp only [free, false_iff, Bool.not_eq_true] at compared matched qualifying
  cases s
  simp only at compared matched qualifying
  rw [compared, matched, qualifying]
  rfl

theorem Describes.columns {s : Subject} {k : Expr} (h : s.Describes k)
    (single : (∃ name, k.symbolicName? = some name) ∨ k.columns = [k]) :
    ∀ column ∈ k.columns, s.Describes column := by
  intro column member
  rcases single with ⟨name, spelled⟩ | single
  · obtain ⟨_, whole⟩ := Expr.symbolicName?_columns spelled member
    rw [h.eq_column spelled]
    exact describes_column whole
  · rw [single, List.mem_singleton] at member
    rw [member]
    exact h

theorem Describes.below {s : Subject} {column sub : Expr} {name : String} (h : s.Describes column)
    (spelled : sub.symbolicName? = some name) : s.below.Describes (.qualify column sub) := by
  refine describes_of_plain rfl (by simp [Expr.qualify]) ?_
  rw [Expr.holdsPattern_qualify spelled]
  exact h.qualifying

end Subject

/-! Conditions on a subject. -/

namespace Predicate

variable {s : Subject} {k : Expr}

theorem leaves_onEach {columns : List Expr} {step : Expr → Except Error Predicate} {left : Prop}
    (each : ∀ column ∈ columns, Leaves (step column) left) :
    Leaves (columns.mapM step >>= join .and) left := by
  intro p found
  obtain ⟨ps, made, joined⟩ := bind_eq_ok_iff.mp found
  have some : columns ≠ [] := by
    rintro rfl
    cases made
    exact ne_nil_of_join rfl joined rfl
  obtain ⟨column, rest, rfl⟩ := List.exists_cons_of_ne_nil some
  rw [leaves_join each .and p found]
  simp

theorem leaves_condition (subject : s.Describes k)
    (single : (∃ name, k.symbolicName? = some name) ∨ k.columns = [k]) {key : String → Expr}
    (spelled : SpellsNames key) {v : Json} (distinct : v.keysDistinct = true)
    (operators : ∀ entries, v = .object entries → ∀ column, s.Describes column →
      Leaves (ofOperators column (Expr.ofJsonEntries key entries))
        (Json.operatorsLeaveRegex s entries = true)) :
    Leaves (ofPair k (.ofJsonKeyed key v)) (v.conditionLeavesRegex s = true) := by
  have compared (op : Operator) (value : Value) (read : op.isMembership = false) :
      Leaves (apply op [k, .value value]) (s.compared = true) := by
    refine leaves_congr ?_ (leaves_apply_read read subject.compared (Expr.leaves_value value))
    simp
  cases v
  case string source =>
    rw [Expr.ofJsonKeyed, Expr.ofJsonString_eq, Json.conditionLeavesRegex]
    split
    · rw [ofPair_pattern]
      have left : Leaves (like k ([Pattern.ofText source].map .pattern) false)
          (s.matched = true ∨ ∃ p ∈ [Pattern.ofText source], False) :=
        leaves_like subject.matched fun p _ => Expr.leaves_value _
      exact leaves_congr (by simp) left
    · rw [ofPair_of_comparison rfl]
      exact compared .eq _ rfl
  case array items =>
    have listed := Expr.holdsPattern_ofJsonKeyed spelled distinct
    rw [Expr.ofJsonKeyed_array] at listed ⊢
    rw [ofPair_of_comparison rfl, Json.conditionLeavesRegex, Bool.or_eq_true]
    exact leaves_apply subject.compared listed
  case object entries =>
    rw [Expr.ofJsonKeyed_object spelled (Json.keysDistinct_object_iff.mp distinct).1,
      ofPair_mapping]
    -- What is left does not depend on the column: all of them stand for the same subject.
    refine leaves_onEach ?_
    intro column member
    exact operators entries rfl column (subject.columns single column member)
  all_goals
    rw [Expr.ofJsonKeyed, ofPair_of_comparison rfl]
    exact compared _ _ (by split <;> rfl)

end Predicate

namespace Json

theorem candidates_ofJsonKeyed (key : String → Expr) (json : Json) :
    (Expr.ofJsonKeyed key json).candidates = json.candidates.map (.ofJsonKeyed key) := by
  cases json
  case string text =>
    rw [candidates, List.map_singleton, Expr.ofJsonKeyed, Expr.ofJsonString_eq]
    · split <;> rfl
    · simp
  case array items =>
    rw [Expr.ofJsonKeyed_array]
    rfl
  all_goals
    rfl

theorem single_ofJsonKeyed (key : String → Expr) (json : Json) :
    (∃ name, (Expr.ofJsonKeyed key json).symbolicName? = some name) ∨
      (Expr.ofJsonKeyed key json).columns = [.ofJsonKeyed key json] := by
  cases json
  case string text =>
    rw [Expr.ofJsonKeyed, Expr.ofJsonString_eq]
    split
    · exact .inr rfl
    · exact .inl ⟨text, rfl⟩
  case number n => cases n <;> exact .inr rfl
  all_goals
    rw [Expr.ofJsonKeyed]
    exact .inr rfl

/-- What the induction carries from a value to the values around it. -/
structure Tracked (json : Json) : Prop where
  distinct : json.keysDistinct = true
  operand : ∀ key, SpellsNames key →
    (Expr.ofJsonKeyed key json).Leaves (json.leavesRegex .compared = true)
  operators : ∀ entries, json = object entries → ∀ key, SpellsNames key →
    ∀ (s : Subject) column, s.Describes column →
      Predicate.Leaves (Predicate.ofOperators column (Expr.ofJsonEntries key entries))
        (operatorsLeaveRegex s entries = true)

variable {key : String → Expr} (spelled : SpellsNames key)

include spelled

theorem Tracked.matched {json : Json} (tracked : json.Tracked) :
    (Predicate.matchText (.ofJsonKeyed key json)).Leaves (json.leavesRegex .matched = true) := by
  have whole := tracked.operand key spelled
  cases json
  case string text =>
    have value (text : String) : (Expr.value (.string text)).Leaves (false = true) := by
      simpa using Expr.leaves_value (.string text)
    rw [Expr.ofJsonKeyed, Expr.ofJsonString_eq]
    split
    · exact value _
    · exact value _
  case number n => cases n <;> exact whole
  all_goals exact whole

theorem Tracked.describes {json : Json} (tracked : json.Tracked) :
    json.subject.Describes (.ofJsonKeyed key json) where
  compared := tracked.operand key spelled
  matched := tracked.matched spelled
  qualifying := Expr.holdsPattern_ofJsonKeyed spelled tracked.distinct

theorem leaves_pair {k v : Json} (trackedKey : k.Tracked) (tracked : v.Tracked) :
    Predicate.Leaves (Predicate.ofPair (.ofJsonKeyed key k) (.ofJsonKeyed key v))
      (conditionLeavesRegex k.subject v = true) := by
  refine Predicate.leaves_condition (trackedKey.describes spelled) (single_ofJsonKeyed key k)
    spelled tracked.distinct ?_
  rintro entries rfl column described
  exact tracked.operators entries rfl key spelled _ column described

theorem leaves_entry {name : String} {v : Json} (tracked : v.Tracked) {key' : String → Expr}
    (spelled' : SpellsNames key') :
    Predicate.Leaves (Predicate.ofPair (key name) (.ofJsonKeyed key' v))
      (conditionLeavesRegex .column v = true) := by
  refine Predicate.leaves_condition (Subject.describes_column (spelled name))
    (.inl ⟨name, spelled name⟩) spelled' tracked.distinct ?_
  rintro entries rfl column described
  exact tracked.operators entries rfl key' spelled' _ column described

theorem leaves_array {items : List Json} (distinct : (array items).keysDistinct = true)
    (sides : ∀ pair ∈ items.filterMap pair?, pair.1.Tracked ∧ pair.2.Tracked) :
    (Expr.ofJsonKeyed key (array items)).Leaves
      ((array items).leavesRegex .compared = true) := by
  by_cases pairs : arePairs items = true
  · have specifier : Conditions.ofSpecifier? (.ofJsonKeyed key (array items)) =
        some ⟨.pairs, (items.filterMap pair?).map fun pair =>
          (.ofJsonKeyed key pair.1, .ofJsonKeyed key pair.2)⟩ := by
      rw [Expr.ofJsonKeyed_array, Conditions.ofSpecifier?, Expr.arePairs_ofJson, if_pos pairs,
        Expr.filterMap_pair?_ofJson]
    rw [leavesRegex, if_pos pairs, pairsLeaveRegex_iff]
    refine Expr.leaves_of_ofSpecifier? specifier ?_
    intro pair member
    exact leaves_pair spelled (sides pair member).1 (sides pair member).2
  · have plain : (Expr.ofJsonKeyed key (array items)).isSpecifier = false := by
      rw [Expr.ofJsonKeyed_array, Expr.isSpecifier, Expr.arePairs_ofJson]
      simpa using pairs
    rw [leavesRegex, if_neg pairs]
    exact Expr.leaves_of_plain plain (Expr.holdsPattern_ofJsonKeyed spelled distinct)

theorem leaves_object {entries : List (String × Json)} (once : (entries.map (·.1)).Nodup)
    (below : ∀ entry ∈ entries, entry.2.Tracked) :
    (Expr.ofJsonKeyed key (object entries)).Leaves
      ((object entries).leavesRegex .compared = true) := by
  have specifier : Conditions.ofSpecifier? (.ofJsonKeyed key (object entries)) =
      some ⟨.mapping, entries.map fun entry =>
        (key entry.1, .ofJsonKeyed .identifier entry.2)⟩ := by
    rw [Expr.ofJsonKeyed_object spelled once, Conditions.ofSpecifier?, Expr.ofJsonEntries_eq_map]
  rw [leavesRegex, entriesLeaveRegex_iff]
  refine Expr.leaves_of_ofSpecifier? specifier ?_
  intro entry member
  exact leaves_entry spelled (below entry member) Expr.spellsNames_identifier

theorem leaves_ofNamed {s : Subject} {column : Expr} (described : s.Describes column)
    (named : NamedOperator) {held : Json} (leaf : ∀ inner, held ≠ object inner)
    (tracked : held.Tracked) (items : ∀ item ∈ held.candidates, item.Tracked) :
    Predicate.Leaves (Predicate.ofNamed column named (.ofJsonKeyed key held))
      (s.under named.valueUse = true ∨ held.leavesRegex named.valueUse = true) := by
  have kept := Expr.holdsPattern_ofJsonKeyed spelled tracked.distinct
  cases named with
  | between negated =>
    exact Predicate.leaves_congr (or_congr_right kept)
      (Predicate.leaves_ofNamed_between described.compared)
  | matching caseInsensitive negated =>
    rw [Predicate.ofNamed_matching, candidates_ofJsonKeyed]
    refine Predicate.leaves_congr (or_congr_right (leavesRegex_candidates_iff leaf).symm)
      (Predicate.leaves_negatedIf (Predicate.leaves_like described.matched ?_))
    intro item member
    exact (items item member).matched spelled
  | plain op =>
    cases membership : op.isMembership with
    | true =>
      simp only [NamedOperator.valueUse, membership, if_true]
      refine Predicate.leaves_apply described.compared ?_
      simpa only [Expr.LeavesUnder, membership, if_true] using kept
    | false =>
      simp only [NamedOperator.valueUse, membership, Bool.false_eq_true, if_false]
      exact Predicate.leaves_apply_read membership described.compared (tracked.operand key spelled)

/-! Entries of an operator mapping. -/

theorem leaves_ofEntry {s : Subject} {column : Expr} (described : s.Describes column)
    (name : String) {held : Json} (tracked : held.Tracked)
    (items : ∀ item ∈ held.candidates, item.Tracked) :
    Predicate.Leaves (Predicate.ofEntry column (key name, .ofJsonKeyed .identifier held))
      (operatorsLeaveRegex s [(name, held)] = true) := by
  rcases held.object_or_leaf with ⟨inner, rfl⟩ | leaf
  · have once := (keysDistinct_object_iff.mp tracked.distinct).1
    rw [Expr.ofJsonKeyed_object Expr.spellsNames_identifier once, Predicate.ofEntry,
      operatorsLeaveRegex_mapping]
    have none : operatorsLeaveRegex s [] = false := rfl
    rw [none, Bool.or_false]
    refine Predicate.leaves_onEach ?_
    intro sub member
    obtain ⟨_, whole⟩ := Expr.symbolicName?_columns (spelled name) member
    exact tracked.operators inner rfl _ Expr.spellsNames_identifier _ _ (described.below whole)
  · rw [Predicate.ofEntry_leaf _ _ (Expr.ofJsonKeyed_ne_mapping leaf)]
    intro p found
    obtain ⟨_, same, applied⟩ := Leaf.predicate_eq_ok_iff.mp found
    cases (spelled name).symm.trans same
    rw [Predicate.ofName_eq, bind_eq_ok_iff] at applied
    obtain ⟨named, known, applied⟩ := applied
    have use : valueUseOf name = named.valueUse := by rw [valueUseOf, known]
    have none : operatorsLeaveRegex s [] = false := rfl
    rw [operatorsLeaveRegex_leaf s name leaf, none, Bool.or_false, Bool.or_eq_true, use]
    exact leaves_ofNamed Expr.spellsNames_identifier described named leaf tracked items p applied

omit spelled

/-! Values of any depth. -/

theorem tracked {json : Json} (distinct : json.keysDistinct = true) : json.Tracked := by
  -- The sides of pairs and the candidates of a match stand two levels below.
  have both : json.Tracked ∧ ∀ child ∈ json.children, child.Tracked := by
    induction json using childrenInduction with
    | step json ih =>
      have inside (child : Json) (member : child ∈ json.children) :=
        ih child member (keysDistinct_child distinct member)
      refine ⟨⟨distinct, ?_, ?_⟩, fun child member => (inside child member).1⟩
      · intro key spelled
        cases json
        case array items =>
          refine leaves_array spelled distinct ?_
          intro pair member
          obtain ⟨item, within, first, second⟩ := mem_children_of_pair? member
          have below := (inside item within).2
          exact ⟨below _ first, below _ second⟩
        case object entries =>
          refine leaves_object spelled (keysDistinct_object_iff.mp distinct).1 ?_
          intro entry member
          exact (inside entry.2 (List.mem_map_of_mem member)).1
        all_goals
          refine Expr.leaves_of_plain ?_ (Expr.holdsPattern_ofJsonKeyed spelled distinct)
          rw [Expr.ofJsonKeyed]
          first | rfl | (rw [Expr.ofJsonString_eq]; split <;> rfl)
      · rintro entries rfl key spelled s column described
        rw [Predicate.ofOperators, Predicate.operatorPredicates_eq_mapM, Expr.ofJsonEntries_eq_map,
          List.mapM_map]
        refine Predicate.leaves_congr operatorsLeaveRegex_iff.symm (Predicate.leaves_join ?_ .and)
        intro entry member
        have below := inside entry.2 (List.mem_map_of_mem member)
        refine leaves_ofEntry spelled described entry.1 below.1 ?_
        intro item candidate
        rcases mem_candidates candidate with rfl | within
        · exact below.1
        · exact below.2 item within
  exact both.1

theorem leaves_pairOfColumn {k v : Json} (plain : k.isRegexString = false) (trackedKey : k.Tracked)
    (tracked : v.Tracked) :
    Predicate.Leaves (Predicate.ofPair (Expr.ofJsonKeyed .named k).keyOfPair (.ofJsonKeyed .named v))
      (conditionLeavesRegex k.subject v = true) := by
  cases k
  case string text =>
    have literal : isRegex text = false := plain
    have column : (string text).subject = .column := by
      simp only [subject, leavesRegex, literal]
      rfl
    rw [Expr.ofJsonKeyed, Expr.keyOfPair_ofJsonString plain, column]
    exact leaves_entry Expr.spellsNames_named tracked Expr.spellsNames_named
  case number n =>
    cases n <;> exact leaves_pair Expr.spellsNames_named trackedKey tracked
  all_goals
    exact leaves_pair Expr.spellsNames_named trackedKey tracked

end Json

theorem Closed.ofJsonKeyed {good : Expr → Prop} (closed : Closed good) {key : String → Expr}
    (spelled : SpellsNames key) (keys : ∀ name, good (key name)) {json : Json}
    (distinct : json.keysDistinct = true) : good (.ofJsonKeyed key json) := by
  induction json using Json.childrenInduction generalizing key with
  | step json ih =>
    cases json
    case string text =>
      rw [Expr.ofJsonKeyed, Expr.ofJsonString_eq]
      split <;> exact closed.leaf rfl rfl
    case array items =>
      rw [Expr.ofJsonKeyed_array]
      refine closed.plain _ rfl ?_
      intro child member
      obtain ⟨item, inside, rfl⟩ := List.mem_map.mp member
      exact ih item inside spelled keys (Json.keysDistinct_child distinct inside)
    case object entries =>
      rw [Expr.ofJsonKeyed_object spelled (Json.keysDistinct_object_iff.mp distinct).1,
        Expr.ofJsonEntries_eq_map]
      refine closed.plain _ rfl ?_
      intro child member
      obtain ⟨pair, inPairs, side⟩ := Expr.mem_sides.mp member
      obtain ⟨entry, inside, rfl⟩ := List.mem_map.mp inPairs
      have within : entry.2 ∈ (Json.object entries).children := List.mem_map_of_mem inside
      rcases side with rfl | rfl
      · exact keys entry.1
      · exact ih entry.2 within Expr.spellsNames_identifier (fun _ => closed.leaf rfl rfl)
          (Json.keysDistinct_child distinct within)
    all_goals
      rw [Expr.ofJsonKeyed]
      exact closed.leaf rfl rfl

namespace Predicate

theorem leaves_ofObject {entries : List (String × Json)}
    (distinct : (Json.object entries).keysDistinct = true) (connective : Operator) (negate : Bool) :
    Leaves (ofJson (.object entries) connective negate)
      ((Json.object entries).leavesRegex .compared = true) := by
  obtain ⟨once, below⟩ := Json.keysDistinct_object_iff.mp distinct
  rw [ofJson, Conditions.ofJson_object once, Expr.ofJsonEntries_eq_map, Json.leavesRegex,
    Json.entriesLeaveRegex_iff]
  refine leaves_ofConditions ?_ ?_ connective negate
  · intro entry member
    exact ⟨settled_closed.named entry.1, settled_closed.ofJsonKeyed Expr.spellsNames_identifier
      (fun _ => settled_closed.leaf rfl rfl) (below entry member)⟩
  · intro entry member
    exact Json.leaves_entry Expr.spellsNames_named (Json.tracked (below entry member))
      Expr.spellsNames_identifier

theorem leaves_ofArray {items : List Json} (distinct : (Json.array items).keysDistinct = true)
    (plain : ∀ key ∈ (Json.array items).pairKeys, key.isRegexString = false)
    (connective : Operator) (negate : Bool) :
    Leaves (ofJson (.array items) connective negate)
      ((Json.array items).leavesRegex .compared = true) := by
  rw [ofJson, Conditions.ofJson_array]
  split
  · rename_i pairs
    rw [Json.leavesRegex, if_pos pairs, Json.pairsLeaveRegex_iff]
    have below (pair : Json × Json) (member : pair ∈ items.filterMap Json.pair?) :
        pair.1.keysDistinct = true ∧ pair.2.keysDistinct = true := by
      obtain ⟨item, inside, first, second⟩ := Json.mem_children_of_pair? member
      have whole := Json.keysDistinct_array_iff.mp distinct item inside
      exact ⟨Json.keysDistinct_child whole first, Json.keysDistinct_child whole second⟩
    have settled {json : Json} (distinct : json.keysDistinct = true) :
        (Expr.ofJsonKeyed .named json).Throughout Expr.isSettled :=
      settled_closed.ofJsonKeyed Expr.spellsNames_named settled_closed.named distinct
    refine leaves_ofConditions ?_ ?_ connective negate
    · intro pair member
      refine ⟨?_, settled (below pair member).2⟩
      unfold Expr.keyOfPair
      split
      · exact settled_closed.named _
      · exact settled (below pair member).1
    · intro pair member
      exact Json.leaves_pairOfColumn (plain pair.1 (List.mem_map_of_mem member))
        (Json.tracked (below pair member).1) (Json.tracked (below pair member).2)
  · intro p found
    cases found

/-- If no key of an outermost pair is a regular expression, a pattern is left in the predicate of JSON
conditions exactly where a regular expression is put under an operator that does not match it. -/
theorem holdsPattern_ofJson_iff {doc : Json} {connective : Operator} {negate : Bool} {p : Predicate}
    (distinct : doc.keysDistinct = true)
    (plain : ∀ key ∈ doc.pairKeys, key.isRegexString = false)
    (found : ofJson doc connective negate = .ok p) :
    p.toExpr.HoldsPattern ↔ doc.leavesRegex .compared = true := by
  cases doc
  case object entries => exact leaves_ofObject distinct connective negate p found
  case array items => exact leaves_ofArray distinct plain connective negate p found
  case string text =>
    have refused : Conditions.ofJson (.string text) = .error (.invalidArgument .notConditions) := by
      rw [Conditions.ofJson, Expr.ofJson, Expr.ofJsonKeyed, Expr.ofJsonString_eq]
      cases Json.isRegex text <;> rfl
    rw [ofJson, refused] at found
    cases found
  all_goals cases found

def matchesAndList : Json :=
  .array [.array [.string "name", .string "/^x/i"],
    .array [.string "code", .object [("not_like", .array [.string "/a/", .string "b%"])]],
    .array [.string "tag", .array [.string "/t/"]]]

theorem holdsPattern_ofJson_iff_list :
    ∃ p, ofJson matchesAndList .or true = .ok p ∧ p.toExpr.HoldsPattern := by
  have found : ofJson matchesAndList .or true = .ok _ := rfl
  have left := holdsPattern_ofJson_iff (by decide) (by decide) found
  exact ⟨_, found, left.mpr (by decide)⟩

/-- A regular expression in a list stays a pattern. -/
theorem holdsPattern_ofJson_list :
    ∃ p, ofJson (.object [("a", .array [.string "/^x/"])]) .and false = .ok p ∧
      p.toExpr.HoldsPattern := by
  have kept : ofJson (.object [("a", .array [.string "/^x/"])]) .and false =
      .ok ⟨.isIn, [.identifier "a", .list [.pattern (.regex "^x" false)]]⟩ := rfl
  refine ⟨_, kept, ?_⟩
  simp [holdsPattern_toExpr, AnyPattern, Expr.holdsPattern_iff, Expr.children, Expr.HoldsPattern.here]

end Predicate

end SqlExpr
