import SqlExpr.Proofs.Joining

/-!
Operator mappings, however deep, are the AND of their leaves: of each operator on the column that
the path to it names, in the order in which they are met.
-/

namespace SqlExpr

/-- An operator key and its value, on the column that the keys above them name. -/
structure Leaf where
  column : Expr
  key : Expr
  held : Expr

def Leaf.predicate (leaf : Leaf) : Except Error Predicate := do
  Predicate.ofName leaf.column (← NamedOperator.nameOf leaf.key) leaf.held

theorem Leaf.predicate_eq_ok_iff {leaf : Leaf} {p : Predicate} :
    leaf.predicate = .ok p ↔ ∃ name, leaf.key.symbolicName? = some name ∧
      Predicate.ofName leaf.column name leaf.held = .ok p := by
  rw [predicate, bind_eq_ok_iff]
  cases found : leaf.key.symbolicName? <;> simp [NamedOperator.nameOf, found]

/-- The leaves of a mapping on a column, entry by entry; a mapping in it has its leaves on each column
that its key names below this one. -/
def leaves (column : Expr) : List (Expr × Expr) → List Leaf
  | [] => []
  | (name, .conditions .mapping inner) :: rest =>
    name.columns.flatMap (fun sub => leaves (.qualify column sub) inner) ++ leaves column rest
  | (name, held) :: rest => ⟨column, name, held⟩ :: leaves column rest

/-- The mapping and all mappings in it have entries, and the keys of those in it name columns. -/
inductive Populated : List (Expr × Expr) → Prop
  | intro {entries : List (Expr × Expr)} : entries ≠ [] →
      (∀ name inner, (name, .conditions .mapping inner) ∈ entries → name.columns ≠ []) →
      (∀ name inner, (name, .conditions .mapping inner) ∈ entries → Populated inner) →
      Populated entries

/-! Steps that succeed with the AND of their leaves. -/

/-- The step succeeds if it is sound and each of the leaves succeeds, and then with their AND. -/
structure Conjoins (leaves : List Leaf) (sound : Prop) (step : Except Error Predicate) : Prop where
  ok_iff : ∀ p, step = .ok p ↔
    sound ∧ ∃ ps, leaves.mapM Leaf.predicate = .ok ps ∧ Predicate.join .and ps = .ok p
  filled : sound → leaves ≠ []

namespace Conjoins

theorem leaf (leaf : Leaf) : Conjoins [leaf] True leaf.predicate where
  ok_iff p := by
    cases found : leaf.predicate <;> simp [Predicate.join, found]
  filled _ := by simp

section Fan

variable {α : Type} {items : List α} {parts : α → List Leaf} {sound : α → Prop}
  {step : α → Except Error Predicate}
  (each : ∀ item ∈ items, Conjoins (parts item) (sound item) (step item))

include each

theorem mapM_eq_ok_iff {qs : List Predicate} :
    items.mapM step = .ok qs ↔ (∀ item ∈ items, sound item) ∧
      ∃ groups, items.mapM (fun item => (parts item).mapM Leaf.predicate) = .ok groups ∧
        List.Forall₂ (Predicate.join .and · = .ok ·) groups qs := by
  induction items generalizing qs with
  | nil => simp
  | cons item rest ih =>
    rw [List.forall_mem_cons] at each
    simp only [List.mapM_cons, bind_eq_ok_iff, pure_eq_ok_iff, ih each.2, each.1.ok_iff,
      List.forall_mem_cons]
    constructor
    · rintro ⟨q, ⟨here, ps, one, joined⟩, qs, ⟨later, groups, others, related⟩, rfl⟩
      exact ⟨⟨here, later⟩, ps :: groups, ⟨ps, one, groups, others, rfl⟩, .cons joined related⟩
    · rintro ⟨⟨here, later⟩, _, ⟨ps, one, groups, others, rfl⟩, related⟩
      cases related with
      | cons joined related =>
        exact ⟨_, ⟨here, ps, one, joined⟩, _, ⟨later, groups, others, related⟩, rfl⟩

theorem all : Conjoins (items.flatMap parts) (items ≠ [] ∧ ∀ item ∈ items, sound item)
    (items.mapM step >>= Predicate.join .and) where
  ok_iff p := by
    simp only [bind_eq_ok_iff, mapM_eq_ok_iff each, mapM_flatMap_eq_ok_iff]
    constructor
    · rintro ⟨qs, ⟨sound, groups, found, related⟩, joined⟩
      refine ⟨⟨?_, sound⟩, _, ⟨groups, found, rfl⟩, ?_⟩
      · rintro rfl
        cases found
        cases related
        exact Predicate.ne_nil_of_join rfl joined rfl
      · rw [← Predicate.join_flatten rfl related]
        exact joined
    · rintro ⟨⟨_, sound⟩, _, ⟨groups, found, rfl⟩, joined⟩
      have filled : ∀ group ∈ groups, group ≠ [] := by
        refine forall_of_mapM found ?_
        intro item member group yields
        exact ne_nil_of_mapM yields ((each item member).filled (sound item member))
      obtain ⟨qs, related⟩ := Predicate.exists_joins (rfl : Operator.and.isAssociative = true) filled
      refine ⟨qs, ⟨sound, groups, found, related⟩, ?_⟩
      rw [Predicate.join_flatten rfl related]
      exact joined
  filled := by
    rintro ⟨some, sound⟩
    obtain ⟨item, rest, rfl⟩ := List.exists_cons_of_ne_nil some
    have contributed := (each item (by simp)).filled (sound item (by simp))
    simp [contributed]

end Fan

theorem onEach {columns : List Expr} {parts : Expr → List Leaf} {sound : Prop}
    {step : Expr → Except Error Predicate}
    (each : ∀ column ∈ columns, Conjoins (parts column) sound (step column)) :
    Conjoins (columns.flatMap parts) (columns ≠ [] ∧ sound)
      (columns.mapM step >>= Predicate.join .and) := by
  have same : (columns ≠ [] ∧ sound) ↔ columns ≠ [] ∧ ∀ column ∈ columns, sound := by
    refine and_congr_right fun some => ⟨fun sound _ _ => sound, fun every => ?_⟩
    obtain ⟨column, _, rfl⟩ := List.exists_cons_of_ne_nil some
    exact every column (by simp)
  rw [same]
  exact .all each

end Conjoins

/-! Entries of a mapping. -/

theorem Expr.mapping_or_leaf (held : Expr) :
    (∃ inner, held = .conditions .mapping inner) ∨ ∀ inner, held ≠ .conditions .mapping inner := by
  by_cases mapping : ∃ inner, held = .conditions .mapping inner
  · exact .inl mapping
  · exact .inr (by simpa using mapping)

namespace Predicate

def ofEntry (column : Expr) : Expr × Expr → Except Error Predicate
  | (name, .conditions .mapping inner) => do
    join .and (← name.columns.mapM fun sub => ofOperators (.qualify column sub) inner)
  | (name, held) => Leaf.predicate ⟨column, name, held⟩

theorem ofEntry_leaf (column name : Expr) {held : Expr}
    (leaf : ∀ inner, held ≠ .conditions .mapping inner) :
    ofEntry column (name, held) = Leaf.predicate ⟨column, name, held⟩ := by
  rw [ofEntry]
  exact leaf

theorem operatorPredicates_eq_mapM (column : Expr) (entries : List (Expr × Expr)) :
    operatorPredicates (.of column) entries = entries.mapM (ofEntry column) := by
  induction entries with
  | nil =>
    rw [operatorPredicates]
    rfl
  | cons entry rest ih =>
    obtain ⟨name, held⟩ := entry
    rw [List.mapM_cons, ← ih]
    rcases held.mapping_or_leaf with ⟨inner, rfl⟩ | leaf
    · rw [operatorPredicates_cons_mapping]
      simp only [ofEntry, bind_assoc]
    · rw [operatorPredicates_cons_leaf _ _ _ _ leaf, ofEntry_leaf column name leaf]
      simp only [Leaf.predicate, bind_assoc]

end Predicate

def leavesOfEntry (column : Expr) : Expr × Expr → List Leaf
  | (name, .conditions .mapping inner) =>
    name.columns.flatMap fun sub => leaves (.qualify column sub) inner
  | (name, held) => [⟨column, name, held⟩]

theorem leavesOfEntry_leaf (column name : Expr) {held : Expr}
    (leaf : ∀ inner, held ≠ .conditions .mapping inner) :
    leavesOfEntry column (name, held) = [⟨column, name, held⟩] := by
  rw [leavesOfEntry]
  exact leaf

theorem leaves_eq_flatMap (column : Expr) (entries : List (Expr × Expr)) :
    leaves column entries = entries.flatMap (leavesOfEntry column) := by
  induction entries with
  | nil => rw [leaves, List.flatMap_nil]
  | cons entry rest ih =>
    obtain ⟨name, held⟩ := entry
    rw [List.flatMap_cons, ← ih]
    rcases held.mapping_or_leaf with ⟨inner, rfl⟩ | leaf
    · rw [leaves, leavesOfEntry]
    · rw [leaves, leavesOfEntry_leaf column name leaf, List.singleton_append]
      exact leaf

def PopulatedEntry : Expr × Expr → Prop
  | (name, held) => ∀ inner, held = .conditions .mapping inner → name.columns ≠ [] ∧ Populated inner

theorem populated_iff {entries : List (Expr × Expr)} :
    Populated entries ↔ entries ≠ [] ∧ ∀ entry ∈ entries, PopulatedEntry entry := by
  constructor
  · rintro ⟨some, named, inside⟩
    refine ⟨some, ?_⟩
    rintro ⟨name, held⟩ member inner rfl
    exact ⟨named name inner member, inside name inner member⟩
  · rintro ⟨some, every⟩
    refine .intro some ?_ ?_
    · intro name inner member
      exact (every _ member inner rfl).1
    · intro name inner member
      exact (every _ member inner rfl).2

/-! Mappings of any depth. -/

theorem conjoins_ofEntry {column name held : Expr}
    (nested : ∀ inner, held = .conditions .mapping inner → ∀ column,
      Conjoins (leaves column inner) (Populated inner) (Predicate.ofOperators column inner)) :
    Conjoins (leavesOfEntry column (name, held)) (PopulatedEntry (name, held))
      (Predicate.ofEntry column (name, held)) := by
  rcases held.mapping_or_leaf with ⟨inner, rfl⟩ | leaf
  · have sound : PopulatedEntry (name, .conditions .mapping inner) ↔
        name.columns ≠ [] ∧ Populated inner := by
      simp [PopulatedEntry]
    rw [sound, leavesOfEntry, Predicate.ofEntry]
    exact .onEach fun sub _ => nested inner rfl (.qualify column sub)
  · have sound : PopulatedEntry (name, held) ↔ True := by
      simp [PopulatedEntry, leaf]
    rw [sound, leavesOfEntry_leaf column name leaf, Predicate.ofEntry_leaf column name leaf]
    exact .leaf _

theorem conjoins_ofOperators (column : Expr) (entries : List (Expr × Expr)) :
    Conjoins (leaves column entries) (Populated entries)
      (Predicate.ofOperators column entries) := by
  -- A nested mapping is a part of the mapping around it, on another column.
  generalize mapping : Expr.conditions .mapping entries = e
  induction e using Expr.childrenInduction generalizing column entries with
  | step e ih =>
    subst mapping
    rw [populated_iff, leaves_eq_flatMap, Predicate.ofOperators,
      Predicate.operatorPredicates_eq_mapM]
    refine .all ?_
    rintro ⟨name, held⟩ member
    refine conjoins_ofEntry ?_
    rintro inner rfl column
    exact ih _ (Expr.mem_sides.mpr ⟨_, member, .inr rfl⟩) column inner rfl

namespace Predicate

/-- The leaves of a mapping on each column that a key names. -/
def leavesOfKey (key : Expr) (operators : List (Expr × Expr)) : List Leaf :=
  key.columns.flatMap fun column => leaves column operators

theorem conjoins_ofPair (key : Expr) (operators : List (Expr × Expr)) :
    Conjoins (leavesOfKey key operators) (key.columns ≠ [] ∧ Populated operators)
      (ofPair key (.conditions .mapping operators)) := by
  rw [ofPair_mapping]
  exact .onEach fun column _ => conjoins_ofOperators column operators

/-- The predicate of a mapping on a key exists if the key and the keys of mappings in it name columns,
no mapping is empty, and each leaf has an operator by name that applies; it is the only leaf, or AND
applied to all of them. -/
theorem ofPair_mapping_leaves (key : Expr) (operators : List (Expr × Expr)) :
    ((∃ p, ofPair key (.conditions .mapping operators) = .ok p) ↔
        key.columns ≠ [] ∧ Populated operators ∧
          ∀ leaf ∈ leavesOfKey key operators, ∃ name, leaf.key.symbolicName? = some name ∧
            ∃ p, ofName leaf.column name leaf.held = .ok p) ∧
      ∀ p, ofPair key (.conditions .mapping operators) = .ok p →
        ∃ ps, List.Forall₂ (fun leaf q => leaf.predicate = .ok q) (leavesOfKey key operators) ps ∧
          (ps = [p] ∨ ps.length ≠ 1 ∧ apply .and (ps.map toExpr) = .ok p) := by
  have whole := conjoins_ofPair key operators
  constructor
  · simp only [whole.ok_iff]
    constructor
    · rintro ⟨p, ⟨named, populated⟩, ps, found, _⟩
      refine ⟨named, populated, ?_⟩
      intro leaf member
      obtain ⟨q, applied⟩ := exists_mapM_iff.mp ⟨ps, found⟩ leaf member
      obtain ⟨name, symbolic, applied⟩ := Leaf.predicate_eq_ok_iff.mp applied
      exact ⟨name, symbolic, q, applied⟩
    · rintro ⟨named, populated, every⟩
      have each : ∀ leaf ∈ leavesOfKey key operators, ∃ q, leaf.predicate = .ok q := by
        intro leaf member
        obtain ⟨name, symbolic, q, applied⟩ := every leaf member
        exact ⟨q, Leaf.predicate_eq_ok_iff.mpr ⟨name, symbolic, applied⟩⟩
      obtain ⟨ps, found⟩ := exists_mapM_iff.mpr each
      have some : ps ≠ [] := ne_nil_of_mapM found (whole.filled ⟨named, populated⟩)
      obtain ⟨p, joined⟩ := (exists_join_iff (rfl : Operator.and.isAssociative = true)).mpr some
      exact ⟨p, ⟨named, populated⟩, ps, found, joined⟩
  · intro p found
    obtain ⟨_, ps, yields, joined⟩ := (whole.ok_iff p).mp found
    refine ⟨ps, SqlExpr.mapM_eq_ok_iff.mp yields, ?_⟩
    by_cases single : ps.length = 1
    · obtain ⟨q, rfl⟩ := List.length_eq_one_iff.mp single
      cases joined
      exact .inl rfl
    · rw [join_of_length_ne_one single] at joined
      exact .inr ⟨single, joined⟩

end Predicate

end SqlExpr
