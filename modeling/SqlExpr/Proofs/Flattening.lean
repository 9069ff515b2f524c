import SqlExpr.Proofs.Assembly

/-!
How a node of an operator with many operands takes in nodes of its own: what each operand
contributes, for operators that may be regrouped and for those that may not.
-/

namespace SqlExpr

theorem withoutNoop_cases (e : Expr) :
    withoutNoop e = e ∨ ∃ family, e = .complex family .noop [withoutNoop e] := by
  unfold withoutNoop
  split
  · exact .inr ⟨_, rfl⟩
  · exact .inl rfl

theorem withoutNoop_of_ne {family : Family} {op : Operator} {args : List Expr} (other : op ≠ .noop) :
    withoutNoop (.complex family op args) = .complex family op args := by
  unfold withoutNoop
  split
  · rename_i found
    cases found
    exact absurd rfl other
  · rfl

theorem spliced_cases (op : Operator) (leading : Bool) (operand : Expr) :
    spliced op leading operand = [withoutNoop operand] ∨
      ∃ family args, withoutNoop operand = .complex family op args ∧
        spliced op leading operand = args := by
  unfold spliced
  split
  · rename_i family inner args found
    split
    · rename_i same
      obtain ⟨rfl, _⟩ := same
      exact .inr ⟨family, args, found, rfl⟩
    · exact .inl (by rw [found])
  · exact .inl rfl

theorem spliced_ne_nil {op : Operator} {operand : Expr} (leading : Bool)
    (filled : ∀ family args, withoutNoop operand = .complex family op args → args ≠ []) :
    spliced op leading operand ≠ [] := by
  rcases spliced_cases op leading operand with single | ⟨family, args, found, contents⟩
  · rw [single]
    simp
  · rw [contents]
    exact filled family args found

theorem spliced_same {op : Operator} (many : op.arity = .many) (family : Family)
    (args : List Expr) : spliced op true (.complex family op args) = args := by
  have wrapper : op ≠ .noop := by
    rintro rfl
    cases many
  simp [spliced, withoutNoop_of_ne wrapper]

section Associative

variable {op : Operator} (associative : op.isAssociative = true)

include associative

theorem spliced_of_isAssociative (leading : Bool) (operand : Expr) :
    spliced op leading operand = spliced op true operand := by
  simp [spliced, associative]

theorem flatten_of_isAssociative (operands : List Expr) :
    flatten op operands = operands.flatMap (spliced op true) := by
  cases operands with
  | nil => rfl
  | cons first others =>
    have same : spliced op false = spliced op true :=
      funext fun operand => spliced_of_isAssociative associative false operand
    simp [flatten, same]

end Associative

theorem spliced_of_not_isAssociative {op : Operator} (grouped : op.isAssociative = false)
    (operand : Expr) : spliced op false operand = [withoutNoop operand] := by
  unfold spliced
  split
  · rename_i found
    simp [grouped, found]
  · rfl

theorem flatten_of_not_isAssociative {op : Operator} (grouped : op.isAssociative = false)
    (first : Expr) (others : List Expr) :
    flatten op (first :: others) = spliced op true first ++ others.map withoutNoop := by
  have each : others.flatMap (spliced op false) = others.map withoutNoop := by
    rw [List.flatMap_congr fun operand _ => spliced_of_not_isAssociative grouped operand,
      List.map_eq_flatMap]
  simp [flatten, each]

theorem forall_mem_flatten_of_spliced {op : Operator} {good : Expr → Prop} {operands : List Expr}
    (each : ∀ leading, ∀ operand ∈ operands, ∀ arg ∈ spliced op leading operand, good arg) :
    ∀ arg ∈ flatten op operands, good arg := by
  cases operands with
  | nil => simp [flatten]
  | cons first others =>
    simp only [flatten, List.mem_append, List.mem_flatMap]
    rintro arg (contributed | ⟨operand, member, contributed⟩)
    · exact each true first (by simp) arg contributed
    · exact each false operand (by simp [member]) arg contributed

/-- What holds of the operands, and passes to the operands of a node in NOOP and of a node of the
same operator, holds of what the flat node keeps. -/
theorem forall_mem_flatten {op : Operator} {good : Expr → Prop} {operands : List Expr}
    (every : ∀ operand ∈ operands, good operand)
    (unwrapped : ∀ family e, good (.complex family .noop [e]) → good e)
    (inner : ∀ family args, good (.complex family op args) → ∀ arg ∈ args, good arg) :
    ∀ arg ∈ flatten op operands, good arg := by
  apply forall_mem_flatten_of_spliced
  intro leading operand member arg contributed
  have whole : good (withoutNoop operand) := by
    rcases withoutNoop_cases operand with same | ⟨family, wrapped⟩
    · rw [same]
      exact every operand member
    · exact unwrapped family _ (wrapped ▸ every operand member)
  rcases spliced_cases op leading operand with single | ⟨family, args, found, contents⟩
  · rw [single, List.mem_singleton] at contributed
    rw [contributed]
    exact whole
  · rw [found] at whole
    rw [contents] at contributed
    exact inner family args whole arg contributed

theorem forall_mem_arrange {op : Operator} {good : Expr → Prop} {settled : List Expr}
    (every : ∀ arg ∈ settled, good arg)
    (unwrapped : ∀ family e, good (.complex family .noop [e]) → good e)
    (inner : ∀ family args, good (.complex family op args) → ∀ arg ∈ args, good arg) :
    ∀ arg ∈ op.arrange settled, good arg := by
  by_cases many : op.arity = .many
  · rw [Operator.arrange_of_many many]
    exact forall_mem_flatten every unwrapped inner
  · rw [Operator.arrange_of_not_many many]
    exact every

end SqlExpr
