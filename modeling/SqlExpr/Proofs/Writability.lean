import SqlExpr.Proofs.DoubleNegation
import SqlExpr.Proofs.NormalForm
import SqlExpr.Proofs.UserText

/-!
What can be written. Writing fails only at conditions, at templates and at operators with a wrong
number of operands; the last are not built.
-/

namespace SqlExpr

/-! Templates fail as an argument does, or because arguments and holes do not match. -/

namespace Template

variable {template : String} {failure : Error}

theorem fillMarks_eq_error {parts : List (Part Unit)} {args : List (Except Error String)}
    (failed : fillMarks template parts args = .error failure) :
    .error failure ∈ args ∨ ∃ mismatch, failure = .placeholderMismatch template mismatch := by
  induction parts generalizing args with
  | nil =>
    cases args with
    | nil => cases failed
    | cons arg args =>
      cases failed
      exact .inr ⟨_, rfl⟩
  | cons part parts ih =>
    match part, args with
    | .text c, args =>
      rw [fillMarks, bind_pure_eq_error_iff] at failed
      exact ih failed
    | .hole (), [] =>
      cases failed
      exact .inr ⟨_, rfl⟩
    | .hole (), arg :: args =>
      rw [fillMarks, bind_eq_error_iff] at failed
      rcases failed with rfl | ⟨_, _, later⟩
      · exact .inl (by simp)
      · rw [bind_pure_eq_error_iff] at later
        exact (ih later).imp_left fun member => by simp [member]

theorem fillReferences_eq_error {args : List (String × Except Error String)}
    {parts : List (Part String)} (failed : fillReferences template args parts = .error failure) :
    (∃ name, (name, .error failure) ∈ args) ∨
      ∃ mismatch, failure = .placeholderMismatch template mismatch := by
  induction parts with
  | nil => cases failed
  | cons part parts ih =>
    match part with
    | .text c =>
      rw [fillReferences, bind_pure_eq_error_iff] at failed
      exact ih failed
    | .hole name =>
      rw [fillReferences, bind_eq_error_iff] at failed
      rcases failed with here | ⟨_, _, later⟩
      · cases known : args.lookup name with
        | none =>
          rw [known] at here
          cases here
          exact .inr ⟨_, rfl⟩
        | some arg =>
          rw [known, Option.getD_some] at here
          subst here
          obtain ⟨before, after, rfl, _⟩ := List.lookup_eq_some_iff.mp known
          exact .inl ⟨name, by simp⟩
      · rw [bind_pure_eq_error_iff] at later
        exact ih later

theorem withMarks_eq_error {args : List (Except Error String)}
    (failed : withMarks template args = .error failure) :
    .error failure ∈ args ∨ ∃ mismatch, failure = .placeholderMismatch template mismatch := by
  rw [withMarks, bind_pure_eq_error_iff] at failed
  exact fillMarks_eq_error failed

theorem withReferences_eq_error {args : List (String × Except Error String)}
    (failed : withReferences template args = .error failure) :
    (∃ name, (name, .error failure) ∈ args) ∨
      ∃ mismatch, failure = .placeholderMismatch template mismatch := by
  simp only [withReferences, bind_eq_error_iff] at failed
  rcases failed with filling | ⟨_, _, rest⟩
  · exact fillReferences_eq_error filling
  · split at rest
    · cases rest
    · cases rest
      exact .inr ⟨_, rfl⟩

end Template

namespace Expr

/-- The expression itself, or a node anywhere in it. -/
inductive StandsIn (node : Expr) : Expr → Prop
  | here : StandsIn node node
  | inside {e child : Expr} : child ∈ e.children → StandsIn node child → StandsIn node e

theorem Throughout.of_standsIn {property : Expr → Prop} {e node : Expr} (h : e.Throughout property)
    (stands : node.StandsIn e) : property node := by
  induction stands with
  | here => exact h.here
  | inside member _ ih => exact ih (h.child member)

def isCounted : Expr → Prop
  | complex _ op args => op.arity.accepts args.length = true
  | _ => True

/-- The text of a node depends on the texts of its parts only: not on the predicate of conditions, nor
on whether arguments fit into a template. -/
def isDirect : Expr → Prop
  | conditions .. | placeholder .. => False
  | _ => True

/-- The failure is that of the node itself and not of a part of it. -/
def Refuses (r : Rendering) (failure : Error) : Expr → Prop
  | conditions _ pairs => r.conditions pairs = .error failure
  | placeholder template .. => ∃ mismatch, failure = .placeholderMismatch template mismatch
  | complex _ op args => op.arity.accepts args.length = false ∧ failure = .operandCount op args.length
  | _ => False

theorem Refuses.not_isDirect {r : Rendering} {failure : Error} {e : Expr}
    (refused : e.Refuses r failure) (counted : e.isCounted) : ¬e.isDirect := by
  cases e
  case conditions | placeholder => exact id
  case complex =>
    rw [isCounted, refused.1] at counted
    cases counted
  all_goals cases refused

end Expr

namespace Rendering

variable {r : Rendering} {failure : Error}

theorem exists_mem_of_allTexts_map {α : Type} {text : α → Except Error String} {items : List α}
    (failed : allTexts (items.map text) = .error failure) :
    ∃ item ∈ items, text item = .error failure := by
  rw [allTexts, List.mapM_map] at failed
  exact exists_mem_of_mapM_eq_error failed

theorem exists_mem_of_allTexts {items : List Expr}
    (failed : allTexts (texts r items) = .error failure) :
    ∃ item ∈ items, r.write item = .error failure := by
  rw [texts_eq_map] at failed
  exact exists_mem_of_allTexts_map failed

theorem exists_mem_of_branchTexts {branches : List (Expr × Expr)}
    (failed : allTexts (branchTexts r branches) = .error failure) :
    ∃ side ∈ Expr.sides branches, r.write side = .error failure := by
  rw [branchTexts_eq_map] at failed
  obtain ⟨⟨test, result⟩, member, broken⟩ := exists_mem_of_allTexts_map failed
  rcases bind_eq_error_iff.mp broken with first | ⟨_, _, second⟩
  · exact ⟨test, Expr.mem_sides.mpr ⟨_, member, .inl rfl⟩, first⟩
  · rw [bind_pure_eq_error_iff] at second
    exact ⟨result, Expr.mem_sides.mpr ⟨_, member, .inr rfl⟩, second⟩

theorem namedTexts_eq_map (args : List (String × Expr)) :
    namedTexts r args = args.map fun (name, e) => (name, r.write e) := by
  induction args with
  | nil => simp [namedTexts]
  | cons arg rest ih => simp [namedTexts, ih]

theorem exists_mem_of_filled {template : String} {args : PlaceholderArgs Expr}
    (failed : filled r template args = .error failure) :
    (∃ arg ∈ args.items, r.write arg = .error failure) ∨
      ∃ mismatch, failure = .placeholderMismatch template mismatch := by
  cases args with
  | positional args =>
    rw [filled, texts_eq_map] at failed
    refine (Template.withMarks_eq_error failed).imp_left fun member => ?_
    simpa [PlaceholderArgs.items] using member
  | named args =>
    rw [filled, namedTexts_eq_map] at failed
    refine (Template.withReferences_eq_error failed).imp_left ?_
    rintro ⟨name, member⟩
    obtain ⟨⟨_, arg⟩, inside, same⟩ := List.mem_map.mp member
    rw [Prod.mk.injEq] at same
    exact ⟨arg, List.mem_map.mpr ⟨_, inside, rfl⟩, same.2⟩

theorem refuses_or_exists_child {e : Expr} (failed : r.write e = .error failure) :
    e.Refuses r failure ∨ ∃ child ∈ e.children, r.write child = .error failure := by
  cases e
  case conditions kind pairs =>
    rw [write] at failed
    exact .inl failed
  case placeholder template args parenthesize =>
    rw [write, bind_pure_eq_error_iff] at failed
    exact (exists_mem_of_filled failed).symm
  case complex family op args =>
    rw [write] at failed
    split at failed
    · split at failed
      · cases failed
      · rw [bind_pure_eq_error_iff] at failed
        exact .inr (exists_mem_of_allTexts failed)
    · cases failed
      rename_i refused
      exact .inl ⟨by simpa using refused, rfl⟩
  case list items =>
    rw [write, bind_pure_eq_error_iff] at failed
    exact .inr (exists_mem_of_allTexts failed)
  case qualified table column =>
    rw [write, bind_eq_error_iff] at failed
    rcases failed with first | ⟨_, _, second⟩
    · exact .inr ⟨table, by simp [Expr.children], first⟩
    · rw [bind_pure_eq_error_iff] at second
      exact .inr ⟨column, by simp [Expr.children], second⟩
  case columnAll table =>
    rw [write, bind_pure_eq_error_iff] at failed
    exact .inr ⟨table, by simp [Expr.children], failed⟩
  case aliased expr label columns =>
    rw [write, bind_eq_error_iff] at failed
    rcases failed with first | ⟨_, _, impossible⟩
    · exact .inr ⟨expr, by simp [Expr.children], first⟩
    · cases columns <;> cases impossible
  case call name args distinct star =>
    rw [write] at failed
    split at failed
    · cases failed
    · rw [bind_pure_eq_error_iff] at failed
      exact .inr (exists_mem_of_allTexts failed)
  case cast expr typeName =>
    rw [write, bind_pure_eq_error_iff] at failed
    exact .inr ⟨expr, by simp [Expr.children], failed⟩
  case subscript expr indices =>
    rw [write, bind_eq_error_iff] at failed
    rcases failed with first | ⟨_, _, second⟩
    · exact .inr ⟨expr, by simp [Expr.children], first⟩
    · rw [bind_pure_eq_error_iff] at second
      obtain ⟨index, member, broken⟩ := exists_mem_of_allTexts second
      exact .inr ⟨index, by simp [Expr.children, member], broken⟩
  case caseWhen branches otherwise subject =>
    simp only [write, bind_eq_error_iff] at failed
    rcases failed with first | ⟨_, _, second | ⟨_, _, third | ⟨_, _, impossible⟩⟩⟩
    · cases subject with
      | none => cases first
      | some subject =>
        rw [subjectText, bind_pure_eq_error_iff] at first
        exact .inr ⟨subject, by simp [Expr.children], first⟩
    · obtain ⟨side, member, broken⟩ := exists_mem_of_branchTexts second
      exact .inr ⟨side, by simp [Expr.children, member], broken⟩
    · exact .inr ⟨otherwise, by simp [Expr.children], third⟩
    · cases impossible
  case ordered expr descending nulls =>
    rw [write, bind_eq_error_iff] at failed
    rcases failed with first | ⟨_, _, impossible⟩
    · exact .inr ⟨expr, by simp [Expr.children], first⟩
    · cases impossible
  case join kind table label condition =>
    simp only [write] at failed
    rcases bind_eq_error_iff.mp failed with first | ⟨_, _, second⟩
    · exact .inr ⟨table, by simp [Expr.children], first⟩
    · rw [bind_pure_eq_error_iff] at second
      cases condition with
      | unconstrained => cases second
      | onPredicate predicate =>
        rw [conditionText, bind_pure_eq_error_iff] at second
        exact .inr ⟨predicate, by simp [Expr.children, JoinCondition.items], second⟩
      | usingColumns columns =>
        rw [conditionText, bind_pure_eq_error_iff] at second
        obtain ⟨column, member, broken⟩ := exists_mem_of_allTexts second
        exact .inr ⟨column, by simp [Expr.children, JoinCondition.items, member], broken⟩
  all_goals cases failed

theorem exists_refuses {e : Expr} (failed : r.write e = .error failure) :
    ∃ node : Expr, node.StandsIn e ∧ node.Refuses r failure := by
  induction e using Expr.childrenInduction with
  | step e ih =>
    rcases refuses_or_exists_child failed with refused | ⟨child, member, broken⟩
    · exact ⟨e, .here, refused⟩
    · obtain ⟨node, stands, refused⟩ := ih child member broken
      exact ⟨node, .inside member stands, refused⟩

end Rendering

namespace Expr

theorem isCounted_of_isSettled {e : Expr} (settled : e.isSettled) : e.isCounted := by
  cases e <;> first | trivial | exact settled.1

/-- Nothing that is built has an operator with a wrong number of operands. Only conditions and templates
in it can fail to be written, also in the predicates of its conditions, as these are built too. -/
theorem Built.writable {e : Expr} (built : e.Built) :
    e.Throughout isCounted ∧
      (∀ (r : Rendering) (failure : Error), r.write e = .error failure →
        ∃ node : Expr, node.StandsIn e ∧ ¬node.isDirect ∧ node.Refuses r failure) ∧
      (∀ kind pairs p, (conditions kind pairs).StandsIn e →
        predicates pairs >>= Predicate.join .and = .ok p → p.toExpr.Built) ∧
      (e.Throughout isDirect → ∀ dialect, ∃ text, e.sql dialect = .ok text) := by
  have counted : e.Throughout isCounted := built.throughout.mono fun _ => isCounted_of_isSettled
  have failing (r : Rendering) (failure : Error) (failed : r.write e = .error failure) :
      ∃ node : Expr, node.StandsIn e ∧ ¬node.isDirect ∧ node.Refuses r failure := by
    obtain ⟨node, stands, refused⟩ := Rendering.exists_refuses failed
    exact ⟨node, stands, refused.not_isDirect (counted.of_standsIn stands), refused⟩
  refine ⟨counted, failing, ?_, ?_⟩
  · intro kind pairs p stands found
    obtain ⟨ps, each, joined⟩ := bind_eq_ok_iff.mp found
    have inv := built_closed.synthesisInvariant
    refine inv.join (inv.of_predicates ?_ each) joined
    intro side member
    exact (built.throughout_built.of_standsIn stands).part member
  · intro direct dialect
    cases written : e.sql dialect with
    | ok text => exact ⟨text, rfl⟩
    | error failure =>
      obtain ⟨node, stands, late, _⟩ := failing _ failure written
      exact absurd (direct.of_standsIn stands) late

theorem Built.writable_excluding :
    (∃ text, (Predicate.excluding Predicate.columnIsOne).toExpr.sql ⟨true⟩ = .ok text) ∧
      ∃ text, (Predicate.excluding Predicate.columnIsOne).toExpr.sql ⟨false⟩ = .ok text := by
  have built := Predicate.built_excluding Predicate.built_columnIsOne rfl
  have column (name : String) : (Expr.identifier name).Throughout isDirect := .leaf trivial rfl
  have one : (Expr.value (.integer 1)).Throughout isDirect := .leaf trivial rfl
  have compared : Predicate.columnIsOne.Throughout isDirect :=
    .intro trivial (by simp [Predicate.columnIsOne, children, column, one])
  have negated : (complex .boolean .not [Predicate.columnIsOne]).Throughout isDirect :=
    .intro trivial (by simp [children, compared])
  have direct : (Predicate.excluding Predicate.columnIsOne).toExpr.Throughout isDirect := by
    refine .intro trivial ?_
    simp [Predicate.excluding, Predicate.toExpr, children, column, negated]
  have written := (Built.writable built).2.2.2 direct
  exact ⟨written ⟨true⟩, written ⟨false⟩⟩

end Expr

end SqlExpr
