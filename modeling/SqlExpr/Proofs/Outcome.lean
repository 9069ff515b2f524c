import Mathlib.Data.List.Forall2

/-!
Computations that can fail: when a chain of steps and a step on each item of a list succeed, and
with what.
-/

namespace SqlExpr

variable {ε α β : Type}

@[simp] theorem bind_eq_ok_iff {step : Except ε α} {next : α → Except ε β} {result : β} :
    step >>= next = .ok result ↔ ∃ middle, step = .ok middle ∧ next middle = .ok result := by
  cases step <;> simp [bind, Except.bind]

@[simp] theorem pure_eq_ok_iff {given result : α} :
    (pure given : Except ε α) = .ok result ↔ given = result := by
  simp [pure, Except.pure]

@[simp] theorem map_eq_ok_iff {step : Except ε α} {change : α → β} {result : β} :
    change <$> step = .ok result ↔ ∃ middle, step = .ok middle ∧ change middle = result := by
  cases step <;> simp [Functor.map, Except.map]

theorem bind_eq_error_iff {step : Except ε α} {next : α → Except ε β} {failure : ε} :
    step >>= next = .error failure ↔
      step = .error failure ∨ ∃ middle, step = .ok middle ∧ next middle = .error failure := by
  cases step <;> simp [bind, Except.bind]

theorem bind_pure_eq_error_iff {step : Except ε α} {change : α → β} {failure : ε} :
    (step >>= fun middle => pure (change middle)) = .error failure ↔ step = .error failure := by
  cases step <;> simp [bind, Except.bind, pure, Except.pure]

theorem mapM_eq_ok_iff {step : α → Except ε β} {items : List α} {results : List β} :
    items.mapM step = .ok results ↔ List.Forall₂ (step · = .ok ·) items results := by
  induction items generalizing results with
  | nil => cases results <;> simp
  | cons item rest ih =>
    rw [List.mapM_cons]
    cases results <;> simp [ih]

theorem mapM_congr {first second : α → Except ε β} {items : List α}
    (same : ∀ item ∈ items, first item = second item) : items.mapM first = items.mapM second := by
  induction items with
  | nil => rfl
  | cons item rest ih =>
    rw [List.mapM_cons, List.mapM_cons, same item (by simp),
      ih fun other member => same other (by simp [member])]

theorem mapM_bind_eq_ok_iff {γ : Type} {first : α → Except ε β} {second : β → Except ε γ}
    {items : List α} {results : List γ} :
    items.mapM (fun item => first item >>= second) = .ok results ↔
      ∃ middle, items.mapM first = .ok middle ∧ middle.mapM second = .ok results := by
  induction items generalizing results with
  | nil => simp
  | cons item rest ih =>
    simp only [List.mapM_cons, bind_eq_ok_iff, pure_eq_ok_iff, ih]
    constructor
    · rintro ⟨result, ⟨head, one, two⟩, later, ⟨tail, each, others⟩, rfl⟩
      refine ⟨head :: tail, ⟨head, one, tail, each, rfl⟩, ?_⟩
      simp [two, others]
    · rintro ⟨_, ⟨head, one, tail, each, rfl⟩, found⟩
      simp only [List.mapM_cons, bind_eq_ok_iff, pure_eq_ok_iff] at found
      obtain ⟨result, two, later, others, rfl⟩ := found
      exact ⟨result, ⟨head, one, two⟩, later, ⟨tail, each, others⟩, rfl⟩

theorem forall_of_mapM {step : α → Except ε β} {items : List α} {results : List β} {good : β → Prop}
    (found : items.mapM step = .ok results)
    (every : ∀ item ∈ items, ∀ result, step item = .ok result → good result) :
    ∀ result ∈ results, good result := by
  have related := mapM_eq_ok_iff.mp found
  induction related with
  | nil => simp
  | cons head tail ih =>
    simp only [List.mem_cons, forall_eq_or_imp] at every ⊢
    exact ⟨every.1 _ head, ih (mapM_eq_ok_iff.mpr tail) every.2⟩

theorem forall_mem_iff_of_mapM {step : α → Except ε β} {items : List α} {results : List β}
    {good : β → Prop} {fine : α → Prop} (found : items.mapM step = .ok results)
    (each : ∀ item ∈ items, ∀ result, step item = .ok result → (good result ↔ fine item)) :
    (∀ result ∈ results, good result) ↔ ∀ item ∈ items, fine item := by
  have related := mapM_eq_ok_iff.mp found
  induction related with
  | nil => simp
  | cons head tail ih =>
    rw [List.forall_mem_cons] at each
    rw [List.forall_mem_cons, List.forall_mem_cons]
    exact and_congr (each.1 _ head) (ih (mapM_eq_ok_iff.mpr tail) each.2)

theorem exists_mem_iff_of_mapM {step : α → Except ε β} {items : List α} {results : List β}
    {good : β → Prop} {fine : α → Prop} (found : items.mapM step = .ok results)
    (each : ∀ item ∈ items, ∀ result, step item = .ok result → (good result ↔ fine item)) :
    (∃ result ∈ results, good result) ↔ ∃ item ∈ items, fine item := by
  have none : (∀ result ∈ results, ¬good result) ↔ ∀ item ∈ items, ¬fine item :=
    forall_mem_iff_of_mapM found fun item member result yields =>
      not_congr (each item member result yields)
  rw [← not_iff_not]
  simpa using none

theorem map_of_mapM {γ : Type} {step : α → Except ε β} {items : List α} {results : List β}
    {given : α → γ} {gained : β → γ} (found : items.mapM step = .ok results)
    (every : ∀ item ∈ items, ∀ result, step item = .ok result → gained result = given item) :
    results.map gained = items.map given := by
  have related := mapM_eq_ok_iff.mp found
  induction related with
  | nil => rfl
  | cons head tail ih =>
    simp only [List.mem_cons, forall_eq_or_imp] at every
    rw [List.map_cons, List.map_cons, every.1 _ head, ih (mapM_eq_ok_iff.mpr tail) every.2]

theorem mapM_flatMap_eq_ok_iff {γ : Type} {step : β → Except ε γ} {parts : α → List β}
    {items : List α} {results : List γ} :
    (items.flatMap parts).mapM step = .ok results ↔
      ∃ groups, items.mapM (fun item => (parts item).mapM step) = .ok groups ∧
        groups.flatten = results := by
  induction items generalizing results with
  | nil => simp
  | cons item rest ih =>
    simp only [List.flatMap_cons, List.mapM_append, List.mapM_cons, bind_eq_ok_iff, pure_eq_ok_iff,
      ih]
    constructor
    · rintro ⟨head, one, _, ⟨groups, others, rfl⟩, rfl⟩
      exact ⟨head :: groups, ⟨head, one, groups, others, rfl⟩, rfl⟩
    · rintro ⟨_, ⟨head, one, groups, others, rfl⟩, rfl⟩
      exact ⟨head, one, _, ⟨groups, others, rfl⟩, rfl⟩

theorem exists_mapM_iff {step : α → Except ε β} {items : List α} :
    (∃ results, items.mapM step = .ok results) ↔
      ∀ item ∈ items, ∃ result, step item = .ok result := by
  induction items with
  | nil => simp
  | cons item rest ih =>
    rw [List.forall_mem_cons, ← ih]
    simp only [List.mapM_cons, bind_eq_ok_iff, pure_eq_ok_iff]
    constructor
    · rintro ⟨_, head, one, tail, others, rfl⟩
      exact ⟨⟨head, one⟩, tail, others⟩
    · rintro ⟨⟨head, one⟩, tail, others⟩
      exact ⟨_, head, one, tail, others, rfl⟩

theorem ne_nil_of_mapM {step : α → Except ε β} {items : List α} {results : List β}
    (found : items.mapM step = .ok results) (some : items ≠ []) : results ≠ [] := by
  have length := (mapM_eq_ok_iff.mp found).length_eq
  have positive := List.length_pos_of_ne_nil some
  exact List.ne_nil_of_length_pos (by omega)

/-! The failure of a chain of steps is that of the first step that fails. -/

def failure? : Except ε α → Option ε
  | .error failure => some failure
  | .ok _ => none

theorem failure?_eq_some_iff {step : Except ε α} {failure : ε} :
    failure? step = some failure ↔ step = .error failure := by
  cases step <;> simp [failure?]

theorem isSome_failure?_iff {step : Except ε α} :
    (failure? step).isSome = true ↔ ∃ failure, step = .error failure := by
  simp [Option.isSome_iff_exists, failure?_eq_some_iff]

theorem failure?_map (change : α → β) (step : Except ε α) :
    failure? (change <$> step) = failure? step := by
  cases step <;> rfl

theorem failure?_bind {step : Except ε α} {next : α → Except ε β}
    (total : ∀ middle, step = .ok middle → ∃ result, next middle = .ok result) :
    failure? (step >>= next) = failure? step := by
  cases step with
  | error failure => rfl
  | ok middle =>
    obtain ⟨result, found⟩ := total middle rfl
    simp [bind, Except.bind, found, failure?]

theorem failure?_mapM {step : α → Except ε β} {items : List α} {fails : α → Option ε}
    (each : ∀ item ∈ items, failure? (step item) = fails item) :
    failure? (items.mapM step) = items.findSome? fails := by
  induction items with
  | nil => rfl
  | cons item rest ih =>
    rw [List.forall_mem_cons] at each
    rw [List.mapM_cons, List.findSome?_cons, ← each.1, ← ih each.2]
    cases step item with
    | error failure => rfl
    | ok result => cases rest.mapM step <;> rfl

theorem exists_mem_of_mapM_eq_error {step : α → Except ε β} {items : List α} {failure : ε}
    (failed : items.mapM step = .error failure) : ∃ item ∈ items, step item = .error failure := by
  rw [← failure?_eq_some_iff, failure?_mapM fun _ _ => rfl] at failed
  obtain ⟨item, member, fails⟩ := List.exists_of_findSome?_eq_some failed
  exact ⟨item, member, failure?_eq_some_iff.mp fails⟩

/-- Two computations that fail alike, or succeed with related results. -/
inductive Agree (related : α → α → Prop) : Except ε α → Except ε α → Prop
  | error (failure : ε) : Agree related (.error failure) (.error failure)
  | ok {first second : α} : related first second → Agree related (.ok first) (.ok second)

namespace Agree

theorem bind {related : α → α → Prop} {related' : β → β → Prop} {first second : Except ε α}
    {next next' : α → Except ε β} (h : Agree related first second)
    (later : ∀ a b, related a b → Agree related' (next a) (next' b)) :
    Agree related' (first >>= next) (second >>= next') := by
  cases h with
  | error failure => exact .error failure
  | ok same => exact later _ _ same

theorem mapM {related : β → β → Prop} {step step' : α → Except ε β} {items : List α}
    (each : ∀ item ∈ items, Agree related (step item) (step' item)) :
    Agree (List.Forall₂ related) (items.mapM step) (items.mapM step') := by
  induction items with
  | nil => exact .ok .nil
  | cons item rest ih =>
    rw [List.mapM_cons, List.mapM_cons]
    refine (each item (by simp)).bind fun a b same => ?_
    refine (ih fun other member => each other (by simp [member])).bind fun as bs others => ?_
    exact .ok (.cons same others)

theorem cases_eq {related : α → α → Prop} {first second : Except ε α}
    (h : Agree related first second) :
    (∃ failure, first = .error failure ∧ second = .error failure) ∨
      ∃ a b, first = .ok a ∧ second = .ok b ∧ related a b := by
  cases h with
  | error failure => exact .inl ⟨failure, rfl, rfl⟩
  | ok same => exact .inr ⟨_, _, rfl, rfl, same⟩

end Agree

end SqlExpr
