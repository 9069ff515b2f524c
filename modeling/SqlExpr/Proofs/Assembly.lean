import SqlExpr.Predicate.Lemmas
import SqlExpr.Proofs.Outcome

/-!
Applying an operator, step by step: which operands are read as predicates, what the operands settle
to, and how the settled operands are arranged in the node.
-/

namespace SqlExpr

theorem Arity.ne_nil_of_accepts {α : Type} {arity : Arity} {items : List α}
    (accepted : arity.accepts items.length = true) : items ≠ [] := by
  rintro rfl
  cases arity <;> cases accepted

namespace Operator

variable {α β : Type}

/-- The operands that stand for what they resolve to. -/
def read (op : Operator) (args : List α) : List α :=
  if op.isMembership then args.take 1 else args

/-- The operands that are left alone. -/
def kept (op : Operator) (args : List α) : List α :=
  if op.isMembership then args.drop 1 else []

@[simp] theorem read_append_kept (op : Operator) (args : List α) :
    op.read args ++ op.kept args = args := by
  unfold read kept
  split
  · exact List.take_append_drop 1 args
  · exact List.append_nil args

theorem read_of_not_membership {op : Operator} (h : op.isMembership = false) (args : List α) :
    op.read args = args := by
  simp [read, h]

theorem mem_of_mem_read {op : Operator} {args : List α} {arg : α} (member : arg ∈ op.read args) :
    arg ∈ args := by
  rw [← read_append_kept op args]
  exact List.mem_append_left _ member

theorem mem_of_mem_kept {op : Operator} {args : List α} {arg : α} (member : arg ∈ op.kept args) :
    arg ∈ args := by
  rw [← read_append_kept op args]
  exact List.mem_append_right _ member

theorem read_map (op : Operator) (f : α → β) (args : List α) :
    op.read (args.map f) = (op.read args).map f := by
  unfold read
  split <;> simp

theorem kept_map (op : Operator) (f : α → β) (args : List α) :
    op.kept (args.map f) = (op.kept args).map f := by
  unfold kept
  split <;> simp

theorem not_membership_of_many {op : Operator} (many : op.arity = .many) :
    op.isMembership = false := by
  cases op <;> simp_all [arity, isMembership]

theorem read_of_many {op : Operator} (many : op.arity = .many) (args : List α) : op.read args = args :=
  read_of_not_membership (not_membership_of_many many) args

theorem many_of_isAssociative {op : Operator} (h : op.isAssociative = true) : op.arity = .many := by
  cases op <;> simp_all [arity, isAssociative]

/-- The settled operands as the node of the operator holds them. -/
def arrange (op : Operator) (settled : List Expr) : List Expr :=
  if op.arity = .many then flatten op settled else settled

theorem arrange_of_many {op : Operator} (many : op.arity = .many) (settled : List Expr) :
    op.arrange settled = flatten op settled := by
  simp [arrange, many]

theorem arrange_of_not_many {op : Operator} (few : op.arity ≠ .many) (settled : List Expr) :
    op.arrange settled = settled := by
  simp [arrange, few]

end Operator

/-! What the operands settle to. -/

theorem settle_cons (op : Operator) (first : Operand) (others : List Operand) :
    settle op (first :: others) = (do
      let head ← first.resolved.get
      let tail ← if op.isMembership then .ok (others.map (·.given))
        else others.mapM (·.resolved.get)
      return head :: tail) := by
  cases h : op.isMembership with
  | true =>
    have same : others.mapM (fun o => (.ok o.given : Except Error Expr)) =
        .ok (others.map (·.given)) := by
      simp [mapM_eq_ok_iff, List.forall₂_map_right_iff, List.forall₂_same]
    simp [settle, h, same]
  | false => simp [settle, h]

theorem settle_eq_ok_iff {op : Operator} {operands : List Operand} {settled : List Expr} :
    settle op operands = .ok settled ↔
      List.Forall₂ (fun o e => o.resolved.get = .ok e) (op.read operands) (op.read settled) ∧
        op.kept settled = (op.kept operands).map (·.given) := by
  cases operands with
  | nil =>
    cases settled <;> cases h : op.isMembership <;>
      simp [settle, Operator.read, Operator.kept, h]
  | cons first others =>
    rw [settle_cons]
    cases h : op.isMembership <;> cases settled <;>
      simp [Operator.read, Operator.kept, h, mapM_eq_ok_iff]
    exact fun _ => eq_comm

theorem settle_congr {op : Operator} {first second : List Operand}
    (given : first.map (·.given) = second.map (·.given))
    (resolved : (op.read first).map (·.resolved.get) = (op.read second).map (·.resolved.get)) :
    settle op first = settle op second := by
  cases first <;> cases second <;> simp only [List.map_nil, List.map_cons, List.cons.injEq,
    reduceCtorEq] at given
  case nil.nil => rfl
  case cons.cons a as b bs =>
    cases h : op.isMembership <;>
      simp only [Operator.read, h, if_true, Bool.false_eq_true, if_false, List.take_succ_cons,
        List.take_zero, List.map_cons, List.map_nil, List.cons.injEq] at resolved
    · have tails : as.mapM (·.resolved.get) = bs.mapM (·.resolved.get) := by
        have maps := congrArg (List.mapM id) resolved.2
        simpa only [List.mapM_map, Function.comp_def, id] using maps
      simp [settle_cons, h, resolved.1, tails]
    · simp [settle_cons, h, resolved.1, given.2]

theorem settle_of_plain {op : Operator} {args : List Expr}
    (plain : ∀ arg ∈ op.read args, arg.isSpecifier = false) :
    settle op (args.map .of) = .ok args := by
  rw [settle_eq_ok_iff, Operator.read_map, Operator.kept_map, List.forall₂_map_left_iff,
    List.forall₂_same]
  refine ⟨?_, by simp [Function.comp_def]⟩
  intro arg member
  exact Expr.resolve_of_isSpecifier_eq_false (plain arg member)

theorem settle_of_eq_ok_iff {op : Operator} {args settled : List Expr} :
    settle op (args.map .of) = .ok settled ↔
      List.Forall₂ (fun a e => a.resolve = .ok e) (op.read args) (op.read settled) ∧
        op.kept settled = op.kept args := by
  rw [settle_eq_ok_iff, Operator.read_map, Operator.kept_map, List.forall₂_map_left_iff]
  simp [Function.comp_def]

theorem settle_map_plain (op : Operator) (args : List Expr) :
    settle op (args.map .plain) = .ok args := by
  rw [settle_eq_ok_iff, Operator.read_map, Operator.kept_map, List.forall₂_map_left_iff,
    List.forall₂_same]
  exact ⟨fun e _ => Operand.resolved_plain e, by simp [Operand.plain, Function.comp_def]⟩

theorem forall_mem_read_of_settle {op : Operator} {args settled : List Expr} {good : Expr → Prop}
    (found : settle op (args.map .of) = .ok settled)
    (every : ∀ arg ∈ op.read args, ∀ resolved, arg.resolve = .ok resolved → good resolved) :
    ∀ arg ∈ op.read settled, good arg :=
  forall_of_mapM (mapM_eq_ok_iff.mpr (settle_of_eq_ok_iff.mp found).1) every

theorem length_of_settle {op : Operator} {args settled : List Expr}
    (found : settle op (args.map .of) = .ok settled) : settled.length = args.length := by
  obtain ⟨related, kept⟩ := settle_of_eq_ok_iff.mp found
  rw [← Operator.read_append_kept op settled, ← Operator.read_append_kept op args,
    List.length_append, List.length_append, related.length_eq, kept]

theorem forall_mem_of_settle {op : Operator} {args settled : List Expr} {good : Expr → Prop}
    (found : settle op (args.map .of) = .ok settled)
    (read : ∀ arg ∈ op.read args, ∀ resolved, arg.resolve = .ok resolved → good resolved)
    (kept : ∀ arg ∈ op.kept args, good arg) : ∀ arg ∈ settled, good arg := by
  intro arg member
  rw [← Operator.read_append_kept op settled, List.mem_append,
    (settle_of_eq_ok_iff.mp found).2] at member
  rcases member with member | member
  · exact forall_mem_read_of_settle found read arg member
  · exact kept arg member

/-! What the node holds. -/

theorem checkOperands_eq_ok_iff {family : Family} {op : Operator} {given : List Expr} :
    checkOperands family op given = .ok () ↔
      (refusesTruth family op = true → ∀ e ∈ given, e.isBooleanTyped = false) ∧
        op.arity.accepts given.length = true := by
  unfold checkOperands
  split
  · rename_i refused
    simp only [Bool.and_eq_true, List.any_eq_true] at refused
    obtain ⟨refuses, e, member, truth⟩ := refused
    simp only [reduceCtorEq, false_iff, not_and]
    intro scalars
    rw [scalars refuses e member] at truth
    exact absurd truth (by simp)
  · rename_i fine
    simp only [Bool.and_eq_true, List.any_eq_true, not_and, not_exists,
      Bool.not_eq_true] at fine
    split
    · rename_i accepted
      simpa [accepted] using fine
    · rename_i refused
      simp [refused]

theorem refusesTruth_of_many {op : Operator} (many : op.arity = .many) (family : Family) :
    refusesTruth family op = family.wantsScalars := by
  cases op <;> simp_all [Operator.arity, refusesTruth, Operator.isOrdering, Operator.isBitwise]

theorem isBooleanTyped_of_wantsScalars {family : Family} (wants : family.wantsScalars = true)
    (op : Operator) (args : List Expr) : (Expr.complex family op args).isBooleanTyped = false := by
  cases family <;> first | rfl | cases wants

theorem Expr.isSpecifier_of_isBooleanTyped {e : Expr} (untyped : e.isBooleanTyped = false) :
    e.isSpecifier = false := by
  cases e <;> first | rfl | cases untyped

theorem checkOperands_settled {family : Family} {op : Operator} {args settled : List Expr}
    (checked : checkOperands family op args = .ok ())
    (found : settle op (args.map .of) = .ok settled) :
    checkOperands family op settled = .ok () := by
  obtain ⟨scalars, accepted⟩ := checkOperands_eq_ok_iff.mp checked
  by_cases refuses : refusesTruth family op = true
  · have same : settle op (args.map .of) = .ok args := by
      apply settle_of_plain
      intro arg member
      exact Expr.isSpecifier_of_isBooleanTyped (scalars refuses arg (Operator.mem_of_mem_read member))
    rw [same] at found
    cases found
    exact checked
  · rw [checkOperands_eq_ok_iff, length_of_settle found]
    exact ⟨fun refused => absurd refused refuses, accepted⟩

theorem assemble_eq (family : Family) (op : Operator) (operands : List Operand) :
    assemble family op operands = (do
      checkOperands family op (operands.map (·.given))
      op.arrange <$> settle op operands) := by
  simp only [assemble, bind_pure_comp]
  rfl

theorem assemble_eq_ok_iff {family : Family} {op : Operator} {operands : List Operand}
    {args : List Expr} :
    assemble family op operands = .ok args ↔
      checkOperands family op (operands.map (·.given)) = .ok () ∧
        ∃ settled, settle op operands = .ok settled ∧ op.arrange settled = args := by
  rw [assemble_eq, bind_eq_ok_iff]
  simp only [map_eq_ok_iff]
  constructor
  · rintro ⟨_, checked, settles⟩
    exact ⟨checked, settles⟩
  · rintro ⟨checked, settles⟩
    exact ⟨(), checked, settles⟩

theorem Predicate.assemble_eq_ok_iff {op : Operator} {operands : List Operand} {p : Predicate} :
    Predicate.assemble op operands = .ok p ↔
      checkOperands .boolean op (operands.map (·.given)) = .ok () ∧
        ∃ settled, settle op operands = .ok settled ∧ p = ⟨op, op.arrange settled⟩ := by
  simp only [Predicate.assemble, bind_eq_ok_iff, pure_eq_ok_iff, SqlExpr.assemble_eq_ok_iff]
  constructor
  · rintro ⟨_, ⟨checked, settled, found, rfl⟩, rfl⟩
    exact ⟨checked, settled, found, rfl⟩
  · rintro ⟨checked, settled, found, rfl⟩
    exact ⟨_, ⟨checked, settled, found, rfl⟩, rfl⟩

theorem Predicate.apply_eq_ok_iff {op : Operator} {args : List Expr} {p : Predicate} :
    Predicate.apply op args = .ok p ↔
      checkOperands .boolean op args = .ok () ∧
        ∃ settled, settle op (args.map .of) = .ok settled ∧ p = ⟨op, op.arrange settled⟩ := by
  rw [Predicate.apply, Predicate.assemble_eq_ok_iff]
  simp [Function.comp_def]

theorem Expr.apply_eq_ok_iff {family : Family} {op : Operator} {args : List Expr} {node : Expr} :
    Expr.apply family op args = .ok node ↔
      checkOperands family op args = .ok () ∧
        ∃ settled, settle op (args.map .of) = .ok settled ∧
          node = .complex family op (op.arrange settled) := by
  simp only [Expr.apply, bind_eq_ok_iff, pure_eq_ok_iff, SqlExpr.assemble_eq_ok_iff, List.map_map]
  constructor
  · rintro ⟨_, ⟨checked, settled, found, rfl⟩, rfl⟩
    exact ⟨by simpa [Function.comp_def] using checked, settled, found, rfl⟩
  · rintro ⟨checked, settled, found, rfl⟩
    exact ⟨_, ⟨by simpa [Function.comp_def] using checked, settled, found, rfl⟩, rfl⟩

theorem Expr.apply_toExpr {op : Operator} {args : List Expr} {p : Predicate}
    (applied : Predicate.apply op args = .ok p) : Expr.apply .boolean op args = .ok p.toExpr := by
  obtain ⟨checked, settled, found, rfl⟩ := Predicate.apply_eq_ok_iff.mp applied
  exact apply_eq_ok_iff.mpr ⟨checked, settled, found, rfl⟩

theorem assemble_congr {family : Family} {op : Operator} {first second : List Operand}
    (given : first.map (·.given) = second.map (·.given))
    (resolved : (op.read first).map (·.resolved.get) = (op.read second).map (·.resolved.get)) :
    assemble family op first = assemble family op second := by
  rw [assemble_eq, assemble_eq, given, settle_congr given resolved]

end SqlExpr
