import SqlExpr.Expr.Equality
import SqlExpr.Proofs.Throughout

/-!
Comparing expressions. Without floats, expressions that compare equal are the same.
-/

namespace SqlExpr

def Value.isFloatless : Value → Bool
  | float _ => false
  | _ => true

theorem Value.same_iff_eq {v w : Value} (floatless : v.isFloatless = true) :
    v.same w = true ↔ v = w := by
  cases v <;> cases w
  case float.float => cases floatless
  all_goals simp [Value.same]

namespace Expr

def isFloatless : Expr → Prop
  | value v => v.isFloatless = true
  | _ => True

/-- To compare equal to the expression is to be the expression. -/
def Compares (a : Expr) : Prop :=
  ∀ b, a.same b = true ↔ a = b

theorem sameAll_iff_eq {as bs : List Expr} (each : ∀ a ∈ as, a.Compares) :
    sameAll as bs = true ↔ as = bs := by
  induction as generalizing bs with
  | nil => cases bs <;> simp [sameAll]
  | cons a as ih =>
    rw [List.forall_mem_cons] at each
    cases bs with
    | nil => simp [sameAll]
    | cons b bs => rw [sameAll, Bool.and_eq_true, each.1, ih each.2, List.cons.injEq]

theorem samePairs_iff_eq {as bs : List (Expr × Expr)} (each : ∀ side ∈ sides as, side.Compares) :
    samePairs as bs = true ↔ as = bs := by
  induction as generalizing bs with
  | nil => cases bs <;> simp [samePairs]
  | cons a as ih =>
    obtain ⟨k, v⟩ := a
    simp only [sides, List.flatMap_cons, List.forall_mem_append, List.forall_mem_cons] at each
    obtain ⟨⟨key, held, _⟩, others⟩ := each
    cases bs with
    | nil => simp [samePairs]
    | cons b bs =>
      rw [samePairs, Bool.and_eq_true, Bool.and_eq_true, key, held, ih others, List.cons.injEq,
        Prod.ext_iff]

theorem sameOption_iff_eq {a b : Option Expr} (each : ∀ e ∈ a, e.Compares) :
    sameOption a b = true ↔ a = b := by
  cases a with
  | none => cases b <;> simp [sameOption]
  | some e =>
    cases b with
    | none => simp [sameOption]
    | some e' => rw [sameOption, each e rfl, Option.some.injEq]

theorem sameNamed_iff_eq {as bs : List (String × Expr)} (each : ∀ a ∈ as, a.2.Compares) :
    sameNamed as bs = true ↔ as = bs := by
  induction as generalizing bs with
  | nil => cases bs <;> simp [sameNamed]
  | cons a as ih =>
    rw [List.forall_mem_cons] at each
    cases bs with
    | nil => simp [sameNamed]
    | cons b bs =>
      rw [sameNamed, Bool.and_eq_true, Bool.and_eq_true, each.1, ih each.2, List.cons.injEq,
        Prod.ext_iff, beq_iff_eq]

theorem sameArgs_iff_eq {args args' : PlaceholderArgs Expr} (each : ∀ e ∈ args.items, e.Compares) :
    sameArgs args args' = true ↔ args = args' := by
  cases args with
  | positional as =>
    cases args' with
    | positional bs =>
      have held : ∀ a ∈ as, a.Compares := each
      rw [sameArgs, sameAll_iff_eq held, PlaceholderArgs.positional.injEq]
    | named bs => simp [sameArgs]
  | named as =>
    cases args' with
    | positional bs => simp [sameArgs]
    | named bs =>
      have held : ∀ a ∈ as, a.2.Compares := List.forall_mem_map.mp each
      rw [sameArgs, sameNamed_iff_eq held, PlaceholderArgs.named.injEq]

theorem sameCondition_iff_eq {condition condition' : JoinCondition Expr}
    (each : ∀ e ∈ condition.items, e.Compares) :
    sameCondition condition condition' = true ↔ condition = condition' := by
  cases condition <;> cases condition'
  case onPredicate.onPredicate predicate predicate' =>
    rw [sameCondition, each predicate (by simp [JoinCondition.items]),
      JoinCondition.onPredicate.injEq]
  case usingColumns.usingColumns columns columns' =>
    have held : ∀ column ∈ columns, column.Compares := each
    rw [sameCondition, sameAll_iff_eq held, JoinCondition.usingColumns.injEq]
  all_goals simp [sameCondition]

theorem compares_of_floatless {a : Expr} (floatless : a.Throughout isFloatless) : a.Compares := by
  induction a using childrenInduction with
  | step a ih =>
    have each : ∀ child ∈ a.children, child.Compares :=
      fun child member => ih child member (floatless.child member)
    have here := floatless.here
    clear ih floatless
    intro b
    fun_cases same a b
    case case22 =>
      refine iff_of_false Bool.false_ne_true ?_
      clear each here
      rintro rfl
      cases a <;> grind
    case case1 v w =>
      have held : v.isFloatless = true := here
      rw [value.injEq]
      exact Value.same_iff_eq held
    case case2 items items' =>
      rw [children] at each
      rw [sameAll_iff_eq each, list.injEq]
    case case3 kind pairs kind' pairs' =>
      rw [children] at each
      rw [Bool.and_eq_true, beq_iff_eq, samePairs_iff_eq each, conditions.injEq]
    case case7 table column table' column' =>
      rw [Bool.and_eq_true, each table (by simp [children]), each column (by simp [children]),
        qualified.injEq]
    case case8 table table' => rw [each table (by simp [children]), columnAll.injEq]
    case case9 expr label columns expr' label' columns' =>
      simp [each expr (by simp [children]) _, and_assoc]
    case case10 family op args family' op' args' =>
      rw [children] at each
      simp [sameAll_iff_eq each, and_assoc]
    case case11 name args distinct star name' args' distinct' star' =>
      rw [children] at each
      simp [sameAll_iff_eq each, and_assoc]
    case case12 expr typeName expr' typeName' => simp [each expr (by simp [children]) _]
    case case13 expr indices expr' indices' =>
      rw [children, List.forall_mem_cons] at each
      simp [each.1 _, sameAll_iff_eq each.2]
    case case14 branches otherwise subject branches' otherwise' subject' =>
      have tests : ∀ side ∈ sides branches, side.Compares :=
        fun side member => each side (by simp [children, member])
      have first : ∀ e ∈ subject, e.Compares :=
        fun e member => each e (by simp_all [children])
      simp [samePairs_iff_eq tests, each otherwise (by simp [children]) _, sameOption_iff_eq first,
        and_assoc]
    case case15 expr descending nulls expr' descending' nulls' =>
      simp [each expr (by simp [children]) _, and_assoc]
    case case20 template args parenthesize template' args' parenthesize' =>
      rw [children] at each
      simp [sameArgs_iff_eq each, and_assoc]
    case case21 kind table label condition kind' table' label' condition' =>
      rw [children, List.forall_mem_cons] at each
      simp [each.1 _, sameCondition_iff_eq each.2, and_assoc]
    all_goals simp

end Expr

end SqlExpr
