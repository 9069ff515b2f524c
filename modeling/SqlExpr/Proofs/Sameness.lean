import Mathlib
import SqlExpr.Proofs.Equality

/-!
Comparing expressions that may hold floats. Expressions are the same if their nodes are, and their
values and children are the same one by one. This is symmetric and transitive, and an expression is the
same as itself unless it holds NaN.
-/

namespace SqlExpr

/-- What the relation says from here on it says in both directions, and it leads further. -/
def Coheres {α : Type} (related : α → α → Prop) (a : α) : Prop :=
  ∀ b, related a b → related b a ∧ ∀ c, related b c → related a c

theorem forall₂_coheres {α : Type} {related : α → α → Prop} {as : List α}
    (each : ∀ a ∈ as, Coheres related a) : Coheres (List.Forall₂ related) as := by
  intro bs same
  induction same with
  | nil => exact ⟨.nil, fun _ onward => onward⟩
  | @cons a b as bs head _ ih =>
    rw [List.forall_mem_cons] at each
    obtain ⟨back, further⟩ := each.1 b head
    obtain ⟨backs, furthers⟩ := ih each.2
    refine ⟨.cons back backs, ?_⟩
    rintro _ (_ | ⟨next, onward⟩)
    exact .cons (further _ next) (furthers _ onward)

instance partialEquivFloat : PartialEquivBEq Float where
  symm same := by
    rw [Float.beq_iff_ne_nan_and_eq] at same ⊢
    tauto
  trans first second := by
    rw [Float.beq_iff_ne_nan_and_eq] at first second ⊢
    grind

theorem Value.coheres (v : Value) : Coheres (·.same · = true) v := by
  intro w same
  cases v
  case float a =>
    cases w
    case float b =>
      have numbers : (a == b) = true := same
      refine ⟨BEq.symm numbers, fun u onward => ?_⟩
      cases u
      case float c => exact BEq.trans numbers onward
      all_goals cases onward
    all_goals cases same
  all_goals
    obtain rfl := (same_iff_eq rfl).mp same
    exact ⟨same, fun _ onward => onward⟩

def Value.isNaN : Value → Bool
  | float x => x.isNaN
  | _ => false

theorem Value.same_self_iff (v : Value) : v.same v = true ↔ v.isNaN = false := by
  cases v
  case float x =>
    rw [isNaN, Float.isNaN_eq_decide_eq_nan, decide_eq_false_iff_not]
    exact Float.beq_self_iff
  all_goals simp [Value.same, isNaN]

namespace Expr

/-- The node without its values and children. -/
def frame : Expr → Expr
  | value _ => value .null
  | list _ => list []
  | conditions kind _ => conditions kind []
  | qualified _ _ => qualified default default
  | columnAll _ => columnAll default
  | aliased _ label columns => aliased default label columns
  | complex family op _ => complex family op []
  | call name _ distinct star => call name [] distinct star
  | cast _ typeName => cast default typeName
  | subscript _ _ => subscript default []
  | caseWhen _ _ subject => caseWhen [] default (subject.map fun _ => default)
  | ordered _ descending nulls => ordered default descending nulls
  | placeholder template (.positional _) parenthesize =>
    placeholder template (.positional []) parenthesize
  | placeholder template (.named args) parenthesize =>
    placeholder template (.named (args.map fun arg => (arg.1, default))) parenthesize
  | join kind _ label .unconstrained => join kind default label .unconstrained
  | join kind _ label (.onPredicate _) => join kind default label (.onPredicate default)
  | join kind _ label (.usingColumns _) => join kind default label (.usingColumns [])
  | e => e

def ownValues : Expr → List Value
  | value v => [v]
  | _ => []

theorem sameAll_iff {as bs : List Expr} :
    sameAll as bs = true ↔ List.Forall₂ (·.same · = true) as bs := by
  induction as generalizing bs with
  | nil => cases bs <;> simp [sameAll]
  | cons a as ih =>
    cases bs with
    | nil => simp [sameAll]
    | cons b bs => rw [sameAll, Bool.and_eq_true, ih, List.forall₂_cons]

theorem samePairs_iff {as bs : List (Expr × Expr)} :
    samePairs as bs = true ↔ List.Forall₂ (·.same · = true) (sides as) (sides bs) := by
  induction as generalizing bs with
  | nil => cases bs <;> simp [samePairs, sides]
  | cons a as ih =>
    cases bs with
    | nil => simp [samePairs, sides]
    | cons b bs =>
      rw [samePairs, Bool.and_eq_true, Bool.and_eq_true, ih, and_assoc]
      simp [sides]

theorem sameNamed_iff {as bs : List (String × Expr)} :
    sameNamed as bs = true ↔ as.map (·.1) = bs.map (·.1) ∧
      List.Forall₂ (·.same · = true) (as.map (·.2)) (bs.map (·.2)) := by
  induction as generalizing bs with
  | nil => cases bs <;> simp [sameNamed]
  | cons a as ih =>
    cases bs with
    | nil => simp [sameNamed]
    | cons b bs =>
      rw [sameNamed, Bool.and_eq_true, Bool.and_eq_true, ih, beq_iff_eq]
      simp only [List.map_cons, List.cons.injEq, List.forall₂_cons]
      tauto

theorem ctorIdx_frame (e : Expr) : e.frame.ctorIdx = e.ctorIdx := by
  fun_cases frame e <;> rfl

theorem names_iff {as bs : List (String × Expr)} :
    as.map (fun arg => (arg.1, (default : Expr))) = bs.map (fun arg => (arg.1, default)) ↔
      as.map (·.1) = bs.map (·.1) := by
  have named : Function.Injective (List.map fun name : String => (name, (default : Expr))) :=
    List.map_injective_iff.mpr (Prod.mk_left_injective _)
  rw [← named.eq_iff, List.map_map, List.map_map]
  rfl

theorem forall₂_concat_iff {α : Type} {related : α → α → Prop} {as bs : List α} {a b : α} :
    List.Forall₂ related (as ++ [a]) (bs ++ [b]) ↔ List.Forall₂ related as bs ∧ related a b := by
  rw [← List.forall₂_reverse_iff, List.reverse_concat, List.reverse_concat, List.forall₂_cons,
    List.forall₂_reverse_iff, and_comm]

theorem same_iff {a b : Expr} :
    a.same b = true ↔ a.frame = b.frame ∧
      List.Forall₂ (·.same · = true) a.ownValues b.ownValues ∧
      List.Forall₂ (·.same · = true) a.children b.children := by
  fun_cases same a b
  case case22 =>
    -- A frame is of the kind of its node, and these are of two kinds.
    refine iff_of_false Bool.false_ne_true ?_
    rintro ⟨frames, -, -⟩
    have kinds : a.ctorIdx = b.ctorIdx := by rw [← ctorIdx_frame a, frames, ctorIdx_frame]
    clear frames
    cases a <;> cases b <;> first | (cases kinds; done) | grind
  case case1 v w => simp [frame, ownValues, children, BEq.beq]
  case case14 branches otherwise subject branches' otherwise' subject' =>
    cases subject <;> cases subject' <;>
      simp [frame, ownValues, children, sameOption, samePairs_iff, forall₂_concat_iff, and_comm]
  case case20 template args parenthesize template' args' parenthesize' =>
    cases args <;> cases args' <;>
      simp [frame, ownValues, children, sameArgs, sameAll_iff, sameNamed_iff, names_iff,
        PlaceholderArgs.items, and_assoc, and_comm, and_left_comm]
  case case21 kind table label condition kind' table' label' condition' =>
    cases condition <;> cases condition' <;>
      simp [frame, ownValues, children, sameCondition, sameAll_iff, JoinCondition.items, and_assoc,
        and_comm, and_left_comm]
  all_goals simp [frame, ownValues, children, sameAll_iff, samePairs_iff, and_assoc, and_comm,
    and_left_comm]

theorem coheres (a : Expr) : Coheres (·.same · = true) a := by
  induction a using childrenInduction with
  | step a ih =>
    intro b same
    obtain ⟨frames, own, parts⟩ := same_iff.mp same
    obtain ⟨ownBack, ownFurther⟩ := forall₂_coheres (fun v _ => v.coheres) _ own
    obtain ⟨back, further⟩ := forall₂_coheres ih _ parts
    refine ⟨same_iff.mpr ⟨frames.symm, ownBack, back⟩, fun c onward => ?_⟩
    obtain ⟨frames', own', parts'⟩ := same_iff.mp onward
    exact same_iff.mpr ⟨frames.trans frames', ownFurther _ own', further _ parts'⟩

instance : PartialEquivBEq Expr where
  symm {a b} same := (a.coheres b same).1
  trans {a b c} first second := (a.coheres b first).2 c second

def isNaN : Expr → Bool
  | value v => v.isNaN
  | _ => false

theorem beq_self_iff {a : Expr} : (a == a) = true ↔ a.Throughout (·.isNaN = false) := by
  induction a using childrenInduction with
  | step a ih =>
    have own : (∀ v ∈ a.ownValues, v.same v = true) ↔ a.isNaN = false := by
      cases a <;> simp [ownValues, isNaN, Value.same_self_iff]
    have parts : (∀ child ∈ a.children, child.same child = true) ↔
        ∀ child ∈ a.children, child.Throughout (·.isNaN = false) := forall₂_congr ih
    change a.same a = true ↔ _
    rw [same_iff, List.forall₂_same, List.forall₂_same, own, parts]
    constructor
    · rintro ⟨-, here, inside⟩
      exact .intro here inside
    · intro throughout
      exact ⟨rfl, throughout.here, fun child member => throughout.child member⟩

/-- An expression that holds NaN is the same as none. -/
theorem beq_eq_false_of_isNaN {a : Expr} (held : ¬a.Throughout (·.isNaN = false)) (b : Expr) :
    (a == b) = false ∧ (b == a) = false := by
  rw [← beq_self_iff] at held
  constructor
  · by_contra same
    rw [Bool.not_eq_false] at same
    exact held (BEq.trans same (BEq.symm same))
  · by_contra same
    rw [Bool.not_eq_false] at same
    exact held (BEq.trans (BEq.symm same) same)

end Expr

end SqlExpr
