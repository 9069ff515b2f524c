import SqlExpr.Proofs.Nesting

/-!
Negation without levels: the level to which specifiers are read does not matter from the nesting of an
expression on, so that negation satisfies the equations it is described by.
-/

namespace SqlExpr

namespace SpecifierReading

theorem nested_predicate (level : Nat) (op : Operator) (args : List Expr) :
    (nested level).predicate op args = Predicate.apply op args := by
  cases level <;> rfl

section Agreement

variable {first second : SpecifierReading}
  (same : ∀ op args, first.predicate op args = second.predicate op args)

include same

theorem invertNode_congr {family : Family} {op : Operator} {args : List Expr}
    (each : ∀ arg ∈ op.read args, first.invert arg = second.invert arg) :
    first.invertNode family op args = second.invertNode family op args := by
  rw [invertNode_eq, invertNode_eq]
  by_cases connective : op = .and ∨ op = .or
  · rw [Operator.read_of_many (Operator.many_of_isConnective connective)] at each
    simp only [mapM_congr each, funext₂ same]
  · simp only [connective, if_false, same]

/-- Two readings negate an expression alike if they negate alike the specifiers that are nested as
deeply as it or less. -/
theorem invert_congr {e : Expr}
    (negate : ∀ s c, Conditions.ofSpecifier? s = some c → s.nesting ≤ e.nesting →
      first.negate c.pairs = second.negate c.pairs) : first.invert e = second.invert e := by
  induction e using Expr.childrenInduction with
  | step e ih =>
    cases e
    case complex family op args =>
      have node : first.invertNode family op args = second.invertNode family op args := by
        apply invertNode_congr same
        intro arg member
        apply ih arg (Operator.mem_of_mem_read member)
        intro s c found nested
        exact negate s c found (Nat.le_trans nested (Expr.nesting_le_of_mem_read member))
      rw [invert_complex, invert_complex, node]
    case isConstant truth => cases truth <;> rw [invert, invert]
    case conditions kind pairs =>
      rw [invert, invert]
      exact negate _ _ rfl (Nat.le_refl _)
    case list items =>
      rw [invert, invert]
      split
      · rename_i pairs
        exact negate (.list items) ⟨.pairs, items.filterMap Expr.pair?⟩
          (by rw [Conditions.ofSpecifier?, if_pos pairs]) (Nat.le_refl _)
      · rfl
    all_goals simp only [invert, same]

end Agreement

theorem nested_negate_eq {s : Expr} {c : Conditions} {level level' : Nat}
    (specifier : Conditions.ofSpecifier? s = some c)
    (agree : ∀ e : Expr, e.nesting < s.nesting →
      (nested level).invert e = (nested level').invert e) :
    (nested (level + 1)).negate c.pairs = (nested (level' + 1)).negate c.pairs := by
  have each : ∀ pair ∈ c.pairs,
      (do let p ← Predicate.ofPair pair.1 pair.2
          (nested level).invertNode .boolean p.op p.args) =
      (do let p ← Predicate.ofPair pair.1 pair.2
          (nested level').invertNode .boolean p.op p.args) := by
    rintro ⟨k, v⟩ member
    cases found : Predicate.ofPair k v with
    | error e => rfl
    | ok p =>
      have smaller := (nesting_ofPair_lt specifier member found).1
      apply invertNode_congr fun op args => by rw [nested_predicate, nested_predicate]
      intro arg inside
      exact agree arg (Nat.lt_of_le_of_lt (Expr.nesting_le_of_mem_read inside) smaller)
  change negatePairs (nested level) c.pairs = negatePairs (nested level') c.pairs
  simp only [negatePairs, mapM_congr each]

theorem nested_invert_eq (bound : Nat) : ∀ (e : Expr) (level level' : Nat), e.nesting ≤ bound →
    bound ≤ level → bound ≤ level' → (nested level).invert e = (nested level').invert e := by
  -- Each specifier uses up one level and one of the nesting.
  induction bound with
  | zero =>
    intro e level level' small _ _
    apply invert_congr fun op args => by rw [nested_predicate, nested_predicate]
    intro s c specifier nested
    have positive := Expr.nesting_pos_of_isSpecifier (Expr.isSpecifier_of_ofSpecifier? specifier)
    omega
  | succ bound ih =>
    intro e level level' small above above'
    apply invert_congr fun op args => by rw [nested_predicate, nested_predicate]
    intro s c specifier nested
    obtain ⟨level, rfl⟩ : ∃ below, level = below + 1 := ⟨level - 1, by omega⟩
    obtain ⟨level', rfl⟩ : ∃ below, level' = below + 1 := ⟨level' - 1, by omega⟩
    apply nested_negate_eq specifier
    intro inner smaller
    exact ih inner level level' (by omega) (by omega) (by omega)

theorem nested_invert {e : Expr} {level : Nat} (enough : e.nesting ≤ level) :
    (nested level).invert e = e.invert :=
  nested_invert_eq e.nesting e level e.depth (Nat.le_refl _) enough (Expr.nesting_le_depth e)

theorem nested_invertNode {family : Family} {op : Operator} {args : List Expr} {level : Nat}
    (enough : ∀ arg ∈ op.read args, arg.nesting ≤ level) :
    (nested level).invertNode family op args = Expr.invertNode family op args := by
  apply invertNode_congr fun op args => by rw [nested_predicate, nested_predicate]
  intro arg member
  have bound := Expr.depth_le_depthAll (Operator.mem_of_mem_read member)
  rw [nested_invert (enough arg member),
    nested_invert (Nat.le_trans (Expr.nesting_le_depth arg) bound)]

def full : SpecifierReading :=
  ⟨Expr.resolve, fun pairs => Predicate.toExpr <$> Predicate.ofConditions ⟨.pairs, pairs⟩ .or true⟩

theorem nested_negate {s : Expr} {c : Conditions} {level : Nat}
    (specifier : Conditions.ofSpecifier? s = some c) (enough : s.nesting ≤ level) :
    (nested level).negate c.pairs = full.negate c.pairs := by
  have positive := Expr.nesting_pos_of_isSpecifier (Expr.isSpecifier_of_ofSpecifier? specifier)
  obtain ⟨level, rfl⟩ : ∃ below, level = below + 1 := ⟨level - 1, by omega⟩
  have each : ∀ pair ∈ c.pairs,
      (do let p ← Predicate.ofPair pair.1 pair.2
          (nested level).invertNode .boolean p.op p.args) =
      (do let p ← Predicate.ofPair pair.1 pair.2
          p.inverted) := by
    rintro ⟨k, v⟩ member
    cases found : Predicate.ofPair k v with
    | error e => rfl
    | ok p =>
      have smaller := (nesting_ofPair_lt specifier member found).1
      apply nested_invertNode
      intro arg inside
      have within : arg.nesting ≤ p.toExpr.nesting := Expr.nesting_le_of_mem_read inside
      omega
  change negatePairs (nested level) c.pairs = full.negate c.pairs
  simp only [negatePairs, full, Predicate.ofConditions, mapM_congr each, if_true, map_bind,
    bind_pure_comp]

end SpecifierReading

open SpecifierReading

namespace Expr

theorem invert_eq_full (e : Expr) : e.invert = full.invert e := by
  apply invert_congr fun op args => nested_predicate _ op args
  intro s c specifier within
  exact nested_negate specifier (Nat.le_trans within (nesting_le_depth e))

theorem invertNode_eq_full (family : Family) (op : Operator) (args : List Expr) :
    invertNode family op args = full.invertNode family op args := by
  apply invertNode_congr fun op args => nested_predicate _ op args
  intro arg member
  have bound := depth_le_depthAll (Operator.mem_of_mem_read member)
  rw [← invert_eq_full, nested_invert (Nat.le_trans (nesting_le_depth arg) bound)]

/-- AND and OR change places and their operands are negated; any other operator gives way to its
counterpart on the same operands. -/
theorem invertNode_eq_ok_iff {family : Family} {op : Operator} {args : List Expr} {p : Predicate} :
    invertNode family op args = .ok p ↔
      ∃ other, op.counterpart = some other ∧
        (op.isConnective ∧ (∃ negated, args.mapM invert = .ok negated ∧
            Predicate.apply other negated = .ok p) ∨
          ¬op.isConnective ∧ Predicate.apply other args = .ok p) := by
  rw [invertNode_eq_full, SpecifierReading.invertNode_eq_ok_iff, ← funext invert_eq_full]
  rfl

theorem invert_complex (family : Family) (op : Operator) (args : List Expr) :
    (complex family op args).invert =
      if family.wantsScalars then .error (.notInvertible (.complex family op args))
      else Predicate.toExpr <$> invertNode family op args := by
  rw [invert_eq_full, SpecifierReading.invert_complex, invertNode_eq_full]

theorem invert_of_ofSpecifier? {e : Expr} {c : Conditions}
    (specifier : Conditions.ofSpecifier? e = some c) :
    e.invert = Predicate.toExpr <$> Predicate.ofConditions c .or true := by
  rw [invert_eq_full, SpecifierReading.invert_of_ofSpecifier? specifier]
  rfl

theorem negates_of_invert {e r : Expr} (found : e.invert = .ok r) : full.Negates e r := by
  rw [invert_eq_full] at found
  exact SpecifierReading.negates_of_invert found

end Expr

namespace Predicate

theorem invert_toExpr (p : Predicate) : p.toExpr.invert = toExpr <$> p.inverted := by
  rw [toExpr, Expr.invert_complex]
  rfl

theorem ofConditions_eq_ok_iff {c : Conditions} {connective : Operator} {e : Predicate} :
    ofConditions c connective false = .ok e ↔
      ∃ ps, predicates c.pairs = .ok ps ∧ join connective ps = .ok e := by
  have same (pair : Expr × Expr) :
      (do let p ← ofPair pair.1 pair.2
          Except.ok p) = ofPair pair.1 pair.2 := bind_pure _
  simp [ofConditions, predicates_eq_mapM, same]

theorem ofConditions_negated_eq_ok_iff {c : Conditions} {connective : Operator} {e : Predicate} :
    ofConditions c connective true = .ok e ↔
      ∃ ps, predicates c.pairs = .ok ps ∧
        ∃ qs, ps.mapM inverted = .ok qs ∧ join connective qs = .ok e := by
  simp only [ofConditions, predicates_eq_mapM, if_true, bind_eq_ok_iff, mapM_bind_eq_ok_iff]
  constructor
  · rintro ⟨qs, ⟨ps, each, inverted⟩, joined⟩
    exact ⟨ps, each, qs, inverted, joined⟩
  · rintro ⟨ps, each, qs, inverted, joined⟩
    exact ⟨qs, ⟨ps, each, inverted⟩, joined⟩

end Predicate

end SqlExpr
