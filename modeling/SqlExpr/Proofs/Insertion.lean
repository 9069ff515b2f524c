import SqlExpr.Proofs.JsonOperands
import SqlExpr.Proofs.Sameness

/-!
What insertions one after another store. A mapping keeps each key where it was inserted first, with the
value that was inserted for it last; a key that holds NaN is a new one every time.
-/

namespace SqlExpr.Conditions

/-- The entries whose key is the same as no key before. -/
def firsts : List (Expr × Expr) → List (Expr × Expr)
  | [] => []
  | entry :: rest => entry :: (firsts rest).filter fun later => !(entry.1 == later.1)

/-- The value of the last entry whose key is the same. -/
def lastHeld (entries : List (Expr × Expr)) (key : Expr) : Option Expr :=
  (entries.filter (·.1 == key)).getLast?.map (·.2)

/-- What is stored for a first entry. A key that is not the same as itself keeps its own value. -/
def stored (entries : List (Expr × Expr)) (entry : Expr × Expr) : Expr × Expr :=
  (entry.1, (lastHeld entries entry.1).getD entry.2)

theorem firsts_concat (entries : List (Expr × Expr)) (entry : Expr × Expr) :
    firsts (entries ++ [entry]) =
      firsts entries ++ if entries.any (·.1 == entry.1) then [] else [entry] := by
  induction entries with
  | nil => rfl
  | cons first rest ih =>
    rw [List.cons_append, firsts, ih, firsts, List.filter_append, List.cons_append, List.any_cons]
    cases same : first.1 == entry.1 <;> cases later : rest.any (·.1 == entry.1) <;> simp [same]

theorem pairwise_firsts (entries : List (Expr × Expr)) :
    (firsts entries).Pairwise fun a b => (a.1 == b.1) = false := by
  induction entries with
  | nil => exact .nil
  | cons first rest ih =>
    rw [firsts, List.pairwise_cons]
    exact ⟨by simp [List.mem_filter], ih.filter _⟩

theorem any_firsts (entries : List (Expr × Expr)) (key : Expr) :
    (firsts entries).any (·.1 == key) = entries.any (·.1 == key) := by
  induction entries with
  | nil => rfl
  | cons first rest ih =>
    rw [firsts, List.any_cons, List.any_cons, ← ih]
    cases same : first.1 == key
    · -- What the first entry takes out has its key, and so not this one.
      have kept (later : Expr × Expr) :
          (!(first.1 == later.1) && later.1 == key) = (later.1 == key) := by
        cases found : later.1 == key
        · simp
        · simp [BEq.congr_right found, same]
      simp only [List.any_filter, kept]
    · rfl

theorem lastHeld_concat (entries : List (Expr × Expr)) (entry : Expr × Expr) (key : Expr) :
    lastHeld (entries ++ [entry]) key =
      if entry.1 == key then some entry.2 else lastHeld entries key := by
  rw [lastHeld, List.filter_append]
  cases same : entry.1 == key <;> simp [same, lastHeld]

theorem stored_concat (entries : List (Expr × Expr)) (entry first : Expr × Expr) :
    stored (entries ++ [entry]) first =
      if first.1 == entry.1 then (first.1, entry.2) else stored entries first := by
  rw [stored, lastHeld_concat, BEq.comm]
  cases first.1 == entry.1 <;> rfl

theorem stored_new {entries : List (Expr × Expr)} {entry : Expr × Expr}
    (fresh : entries.any (·.1 == entry.1) = false) : stored (entries ++ [entry]) entry = entry := by
  have none : lastHeld entries entry.1 = none := by
    rw [lastHeld, List.filter_eq_nil_iff.mpr (by simpa using fresh)]
    rfl
  rw [stored_concat, stored, none]
  cases entry.1 == entry.1 <;> rfl

/-- Among keys of which no two are the same, at most one takes the new value. -/
theorem replace_eq {key held : Expr} {pairs : List (Expr × Expr)}
    (distinct : pairs.Pairwise fun a b => (a.1 == b.1) = false) :
    replace key held pairs =
      (pairs.map fun pair => if pair.1 == key then (pair.1, held) else pair) ++
        if pairs.any (·.1 == key) then [] else [(key, held)] := by
  induction pairs with
  | nil => rfl
  | cons pair rest ih =>
    rw [List.pairwise_cons] at distinct
    rw [replace, List.map_cons, List.any_cons]
    cases same : pair.1 == key
    · rw [ih distinct.2, Bool.false_or]
      simp
    · have others : ∀ other ∈ rest, (other.1 == key) = false := by
        intro other member
        rw [BEq.comm, ← BEq.congr_left same]
        exact distinct.1 other member
      have alone : (rest.map fun other => if other.1 == key then (other.1, held) else other) =
          rest := by
        refine (List.map_congr_left fun other member => ?_).trans (List.map_id rest)
        simp [others other member]
      simp [alone]

theorem pairs_insert {c : Conditions} (mapping : c.kind = .mapping) (key held : Expr) :
    (c.insert key held).pairs = replace key held c.pairs := by
  rw [insert, mapping]

theorem ofList_concat (kind : ConditionsKind) (entries : List (Expr × Expr)) (entry : Expr × Expr) :
    ofList kind (entries ++ [entry]) = (ofList kind entries).insert entry.1 entry.2 := by
  rw [ofList, List.foldl_append]
  rfl

/-- After each insertion the first entries are stored with what was inserted last. -/
theorem pairs_ofList (entries : List (Expr × Expr)) :
    (ofList .mapping entries).pairs = (firsts entries).map (stored entries) := by
  induction entries using List.reverseRecOn with
  | nil => rfl
  | append_singleton entries entry ih =>
    have distinct : ((firsts entries).map (stored entries)).Pairwise
        fun a b => (a.1 == b.1) = false := List.pairwise_map.mpr (pairwise_firsts entries)
    have known : ((firsts entries).map (stored entries)).any (·.1 == entry.1) =
        entries.any (·.1 == entry.1) := by
      rw [List.any_map, ← any_firsts]
      rfl
    rw [ofList_concat, pairs_insert (ofList_kind entries), ih, replace_eq distinct, known,
      firsts_concat, List.map_append, List.map_map]
    congr 1
    · refine List.map_congr_left fun first _ => ?_
      rw [stored_concat]
      rfl
    · cases fresh : entries.any (·.1 == entry.1)
      · simp [stored_new fresh]
      · rfl

theorem ofList_pairs (entries : List (Expr × Expr)) :
    ofList .pairs entries = ⟨.pairs, entries⟩ := by
  induction entries using List.reverseRecOn with
  | nil => rfl
  | append_singleton entries entry ih =>
    rw [ofList_concat, ih, insert]

/-- Insertions into an empty mapping store the first entries for their keys, in their order, each with
the value that was inserted last for its key. No two of the keys are the same, and a key that holds NaN
is the same as none. Ordered pairs are what was inserted. -/
theorem ofList_stores (entries : List (Expr × Expr)) :
    (ofList .mapping entries).kind = .mapping ∧
      (ofList .mapping entries).pairs = (firsts entries).map (stored entries) ∧
      ((ofList .mapping entries).pairs.Pairwise fun a b =>
        (a.1 == b.1) = false ∧ (b.1 == a.1) = false) ∧
      (∀ key other : Expr, ¬key.Throughout (·.isNaN = false) →
        (key == other) = false ∧ (other == key) = false) ∧
      ofList .pairs entries = ⟨.pairs, entries⟩ := by
  refine ⟨ofList_kind entries, pairs_ofList entries, ?_, ?_, ofList_pairs entries⟩
  · rw [pairs_ofList, List.pairwise_map]
    refine (pairwise_firsts entries).imp fun {a b} differ => ⟨differ, ?_⟩
    rwa [BEq.comm]
  · exact fun key other held => Expr.beq_eq_false_of_isNaN held other

/-- The zeros are one key, and each NaN is a key of its own. -/
theorem ofList_stores_zeros :
    (ofList .mapping [(.value (.float 0), .value (.integer 1)),
        (.value (.float Float.nan), .value (.integer 2)),
        (.value (.float (-0)), .value (.integer 3)),
        (.value (.float Float.nan), .value (.integer 4))]).pairs =
      [(.value (.float 0), .value (.integer 3)), (.value (.float Float.nan), .value (.integer 2)),
        (.value (.float Float.nan), .value (.integer 4))] := by
  have compared (x y : Float) : (Expr.value (.float x) == .value (.float y)) = (x == y) := by
    change Expr.same _ _ = _
    rw [Expr.same]
    rfl
  have zeros : ((0 : Float) == 0) = true ∧ ((0 : Float) == -0) = true ∧
      ((-0 : Float) == 0) = true := by decide +kernel
  have apart : ((0 : Float) == Float.nan) = false ∧ (Float.nan == 0) = false ∧
      (Float.nan == -0) = false ∧ (Float.nan == Float.nan) = false ∧
      ((-0 : Float) == Float.nan) = false := by decide +kernel
  rw [(ofList_stores _).2.1]
  simp [firsts, stored, lastHeld, compared, zeros, apart]

end SqlExpr.Conditions
