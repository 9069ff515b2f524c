import SqlExpr.Proofs.Throughout
import SqlExpr.Proofs.UserText

/-!
The text of terms, which are put together from names and plain values with operators. Families leave
no trace in it, nor does the place of NOT to the right of IS: `a IS (NOT b)` and `a IS NOT b` are
written alike.
-/

namespace SqlExpr

namespace Expr

/-- A name, a plain value, or an operator with as many operands as it takes, and with two or more if
it takes any number. -/
def isTerm : Expr → Prop
  | identifier _ => True
  | value .null | value (.boolean _) | value (.integer _) | value (.string _) => True
  | complex _ op args =>
    op ≠ .noop ∧ op.arity.accepts args.length = true ∧ (op.arity = .many → 2 ≤ args.length)
  | _ => False

mutual

def spelling : Expr → String
  | identifier name => Text.quoted '"' name
  | value v => v.sql
  | complex _ op args => op.write (spellings args)
  | _ => ""

def spellings : List Expr → List String
  | [] => []
  | e :: rest => e.spelling :: spellings rest

end

theorem spellings_eq_map (items : List Expr) : spellings items = items.map spelling := by
  induction items with
  | nil => simp [spellings]
  | cons e rest ih => simp [spellings, ih]

end Expr

theorem emptyMembership?_of_terms {op : Operator} {args : List Expr}
    (terms : ∀ arg ∈ args, arg.isTerm) : emptyMembership? op args = none := by
  unfold emptyMembership?
  split
  · exact (terms (.list []) (by simp)).elim
  · exact (terms (.list []) (by simp)).elim
  · rfl

theorem Rendering.write_of_term {r : Rendering} (quoting : r.dialect.quoteIdentifiers = true)
    {e : Expr} (term : e.Throughout Expr.isTerm) : r.write e = .ok e.spelling := by
  induction e using Expr.childrenInduction with
  | step e ih =>
    have here := term.here
    cases e
    case identifier name =>
      rw [write, Dialect.identifier, if_pos quoting, Expr.spelling]
    case value v => rw [write, Expr.spelling]
    case complex family op args =>
      obtain ⟨_, accepted, _⟩ := here
      have none : emptyMembership? op args = none :=
        emptyMembership?_of_terms fun arg member => (term.child member).here
      have each : args.mapM r.write = .ok (args.map Expr.spelling) := by
        rw [mapM_eq_ok_iff, List.forall₂_map_right_iff, List.forall₂_same]
        exact fun arg member => ih arg member (term.child member)
      have texts : allTexts (texts r args) = .ok (Expr.spellings args) := by
        rw [allTexts, texts_eq_map, List.mapM_map, Expr.spellings_eq_map]
        exact each
      rw [write, if_pos accepted, none, Expr.spelling]
      simp only [texts]
      rfl
    all_goals exact here.elim

namespace Expr

theorem sql_of_term {e : Expr} (term : e.Throughout isTerm) : e.sql ⟨true⟩ = .ok e.spelling :=
  Rendering.write_of_term (by rw [Rendering.dialect_nested]) term

mutual

/-- Each operator node replaced by what is made of it and of its replaced operands. -/
def rebuilt (node : Operator → List Expr → Expr) : Expr → Expr
  | complex _ op args => node op (rebuiltAll node args)
  | e => e

def rebuiltAll (node : Operator → List Expr → Expr) : List Expr → List Expr
  | [] => []
  | e :: rest => e.rebuilt node :: rebuiltAll node rest

end

theorem rebuiltAll_eq_map (node : Operator → List Expr → Expr) (items : List Expr) :
    rebuiltAll node items = items.map (rebuilt node) := by
  induction items with
  | nil => simp [rebuiltAll]
  | cons e rest ih => simp [rebuiltAll, ih]

/-- The term with the same family everywhere. -/
def untagged : Expr → Expr :=
  rebuilt (complex .generic)

end Expr

/-- The node that the text of an operator on its operands reads as. -/
def Operator.fused : Operator → List Expr → Expr
  | .is, [operand, .complex _ .not [negand]] => .complex .generic .isNot [operand, negand]
  | op, args => .complex .generic op args

namespace Expr

/-- The term that the text of a term reads as. -/
def asRead : Expr → Expr :=
  rebuilt Operator.fused

/-- IS with NOT to its right. -/
def testsNegation : Expr → Prop
  | complex _ .is [_, complex _ .not [_]] => True
  | _ => False

def isAsRead : Expr → Prop
  | complex family op args => complex family op args = op.fused args
  | _ => True

end Expr

theorem Operator.fused_cases (op : Operator) (args : List Expr) :
    (∃ operand family negand, op = .is ∧ args = [operand, .complex family .not [negand]] ∧
      op.fused args = .complex .generic .isNot [operand, negand]) ∨
    op.fused args = .complex .generic op args := by
  unfold fused
  split
  · rename_i operand family negand
    exact .inl ⟨operand, family, negand, rfl, rfl, rfl⟩
  · exact .inr rfl

namespace Expr

theorem family_of_isAsRead {family : Family} {op : Operator} {args : List Expr}
    (read : (complex family op args).isAsRead) : family = .generic := by
  rw [isAsRead] at read
  rcases op.fused_cases args with ⟨_, _, _, _, _, fused⟩ | fused
  · rw [fused] at read
    cases read
    rfl
  · rw [fused] at read
    cases read
    rfl

theorem not_testsNegation_of_isAsRead {e : Expr} (read : e.isAsRead) : ¬e.testsNegation := by
  intro tests
  unfold testsNegation at tests
  split at tests
  · cases read
  · exact tests

theorem spelling_fused (op : Operator) (args : List Expr) :
    (op.fused args).spelling = op.write (spellings args) := by
  rcases op.fused_cases args with ⟨operand, family, negand, rfl, rfl, fused⟩ | fused
  · rw [fused]
    simp only [spelling, spellings, Operator.write]
    apply String.toList_injective
    simp [Operator.symbol]
  · rw [fused, spelling]

theorem spelling_asRead (e : Expr) : e.asRead.spelling = e.spelling := by
  induction e using childrenInduction with
  | step e ih =>
    cases e
    case complex family op args =>
      have same : (args.map asRead).map spelling = args.map spelling := by
        rw [List.map_map]
        exact List.map_congr_left ih
      rw [asRead, rebuilt, rebuiltAll_eq_map, spelling_fused, spelling, spellings_eq_map,
        spellings_eq_map]
      exact congrArg op.write same
    all_goals rfl

theorem throughout_fused {op : Operator} {args : List Expr}
    (here : (complex .generic op args).isTerm)
    (every : ∀ arg ∈ args, arg.Throughout fun e => e.isTerm ∧ e.isAsRead) :
    (op.fused args).Throughout fun e => e.isTerm ∧ e.isAsRead := by
  rcases op.fused_cases args with ⟨operand, family, negand, rfl, rfl, fused⟩ | fused
  · rw [fused]
    refine .intro ⟨⟨by decide, rfl, fun many => by cases many⟩, rfl⟩ ?_
    have member : negand ∈ (complex family .not [negand]).children := by simp [children]
    have inside := (every (complex family .not [negand]) (by simp)).child member
    simp only [children, List.mem_cons, List.not_mem_nil, or_false]
    rintro child (rfl | rfl)
    · exact every child (by simp)
    · exact inside
  · rw [fused]
    exact .intro ⟨here, fused.symm⟩ every

theorem throughout_asRead {e : Expr} (term : e.Throughout isTerm) :
    e.asRead.Throughout fun e => e.isTerm ∧ e.isAsRead := by
  induction e using childrenInduction with
  | step e ih =>
    have here := term.here
    cases e
    case identifier | value => exact .intro ⟨here, trivial⟩ (by simp [asRead, rebuilt, children])
    case complex family op args =>
      rw [asRead, rebuilt, rebuiltAll_eq_map]
      refine throughout_fused ?_ ?_
      · simpa [isTerm] using here
      · intro arg member
        obtain ⟨given, inside, rfl⟩ := List.mem_map.mp member
        exact ih given inside (term.child inside)
    all_goals exact here.elim

theorem negation_of_untagged {e negand : Expr} {family : Family}
    (same : e.untagged = complex family .not [negand]) :
    ∃ kind inner, e = complex kind .not [inner] := by
  cases e
  case complex kind op args =>
    rw [untagged, rebuilt, rebuiltAll_eq_map] at same
    injection same with _ sameOp sameArgs
    obtain ⟨inner, rfl, _⟩ := List.map_eq_singleton_iff.mp sameArgs
    exact ⟨kind, inner, by rw [sameOp]⟩
  all_goals cases same

theorem asRead_eq_untagged {e : Expr} (free : e.Throughout fun e => ¬e.testsNegation) :
    e.asRead = e.untagged := by
  induction e using childrenInduction with
  | step e ih =>
    cases e
    case complex family op args =>
      have same : args.map asRead = args.map untagged :=
        List.map_congr_left fun arg member => ih arg member (free.child member)
      rw [asRead, untagged, rebuilt, rebuilt, rebuiltAll_eq_map, rebuiltAll_eq_map]
      change op.fused (args.map asRead) = complex .generic op (args.map untagged)
      rw [same]
      rcases op.fused_cases (args.map untagged) with
        ⟨operand, kind, negand, rfl, pair, _⟩ | fused
      · -- The node would be IS with NOT to its right before families are dropped, too.
        obtain ⟨first, others, rfl, _, more⟩ := List.map_eq_cons_iff.mp pair
        obtain ⟨second, rfl, negated⟩ := List.map_eq_singleton_iff.mp more
        obtain ⟨_, _, rfl⟩ := negation_of_untagged negated
        exact absurd trivial free.here
      · exact fused
    all_goals rfl

end Expr

end SqlExpr
