import SqlExpr.Proofs.Flattening

/-!
Operands in groups. An operator that may be regrouped makes the same node of its operands however they
are grouped; one that groups to the left does if groups only stand first.
-/

namespace SqlExpr

inductive Grouping where
  | operand (e : Expr)
  | group (parts : List Grouping)

namespace Grouping

mutual

def operands : Grouping → List Expr
  | operand e => [e]
  | group parts => operandsAll parts

def operandsAll : List Grouping → List Expr
  | [] => []
  | part :: rest => operands part ++ operandsAll rest

end

mutual

/-- The operator is applied to a group when its parts are built. -/
def build (family : Family) (op : Operator) : Grouping → Except Error Expr
  | operand e => .ok e
  | group parts => do Expr.apply family op (← buildAll family op parts)

def buildAll (family : Family) (op : Operator) : List Grouping → Except Error (List Expr)
  | [] => .ok []
  | part :: rest => do
    let first ← build family op part
    let others ← buildAll family op rest
    return first :: others

end

def IsOperand (part : Grouping) : Prop :=
  ∃ e, part = operand e

/-- No group is empty. -/
inductive Filled : Grouping → Prop
  | operand (e : Expr) : Filled (operand e)
  | group {parts : List Grouping} : parts ≠ [] → (∀ part ∈ parts, Filled part) →
      Filled (group parts)

/-- Groups are only first in their group. -/
inductive LeftNested : Grouping → Prop
  | operand (e : Expr) : LeftNested (operand e)
  | group {parts : List Grouping} : (∀ part ∈ parts, LeftNested part) →
      (∀ part ∈ parts.tail, part.IsOperand) → LeftNested (group parts)

theorem operandsAll_ne_nil {parts : List Grouping} (some : parts ≠ [])
    (filled : ∀ part ∈ parts, part.operands ≠ []) : operandsAll parts ≠ [] := by
  obtain ⟨first, others, rfl⟩ := List.exists_cons_of_ne_nil some
  rw [operandsAll]
  exact List.append_ne_nil_of_left_ne_nil (filled first (by simp)) _

theorem Filled.operands_ne_nil {grouping : Grouping} (filled : grouping.Filled) :
    grouping.operands ≠ [] := by
  induction filled with
  | operand e => simp [operands]
  | group some _ ih =>
    rw [operands]
    exact operandsAll_ne_nil some ih

end Grouping

/-! Operators with many operands. -/

theorem flatten_append (op : Operator) {items rest : List Expr} (some : items ≠ []) :
    flatten op (items ++ rest) = flatten op items ++ rest.flatMap (spliced op false) := by
  obtain ⟨first, others, rfl⟩ := List.exists_cons_of_ne_nil some
  simp [flatten]

section Many

variable {family : Family} {op : Operator} (many : op.arity = .many)

include many

theorem apply_many_iff {args : List Expr} {node : Expr} :
    Expr.apply family op args = .ok node ↔
      (family.wantsScalars = true → ∀ arg ∈ args, arg.isBooleanTyped = false) ∧ args ≠ [] ∧
        ∃ settled, args.mapM Expr.resolve = .ok settled ∧
          node = .complex family op (flatten op settled) := by
  have settles (settled : List Expr) :
      settle op (args.map .of) = .ok settled ↔ args.mapM Expr.resolve = .ok settled := by
    rw [settle_of_eq_ok_iff, Operator.read_of_many many, Operator.read_of_many many, mapM_eq_ok_iff]
    have kept (items : List Expr) : op.kept items = [] := by
      simp [Operator.kept, Operator.not_membership_of_many many]
    simp [kept]
  have counted : op.arity.accepts args.length = true ↔ args ≠ [] := by
    rw [many, Arity.accepts, decide_eq_true_eq, Nat.one_le_iff_ne_zero, ne_eq,
      List.length_eq_zero_iff]
  rw [Expr.apply_eq_ok_iff, checkOperands_eq_ok_iff, refusesTruth_of_many many, counted, and_assoc]
  simp only [settles, Operator.arrange_of_many many]

theorem flatten_substituted {before inner after : List Expr}
    (placed : op.isAssociative = true ∨ before = []) (some : inner ≠ []) :
    flatten op (before ++ .complex family op (flatten op inner) :: after) =
      flatten op (before ++ inner ++ after) := by
  rcases placed with associative | rfl
  · simp [flatten_of_isAssociative associative, spliced_same many]
  · rw [List.nil_append, List.nil_append, flatten_append op some, flatten, spliced_same many]

theorem apply_substituted {before inner after : List Expr} {node : Expr}
    (placed : op.isAssociative = true ∨ before = []) (some : inner ≠ []) :
    Expr.apply family op (before ++ inner ++ after) = .ok node ↔
      ∃ x, Expr.apply family op inner = .ok x ∧
        Expr.apply family op (before ++ x :: after) = .ok node := by
  have stays (args : List Expr) :
      (Expr.complex family op args).resolve = .ok (.complex family op args) :=
    Expr.resolve_of_isSpecifier_eq_false rfl
  have placed' {first : List Expr} (one : before.mapM Expr.resolve = .ok first) :
      op.isAssociative = true ∨ first = [] := by
    refine placed.imp_right ?_
    rintro rfl
    cases one
    rfl
  simp only [apply_many_iff many, List.mapM_append, List.mapM_cons, bind_eq_ok_iff, pure_eq_ok_iff,
    List.forall_mem_append, List.forall_mem_cons]
  constructor
  · rintro ⟨scalars, _, _, ⟨_, ⟨first, one, middle, two, rfl⟩, last, three, rfl⟩, rfl⟩
    refine ⟨_, ⟨fun wants => (scalars wants).1.2, some, middle, two, rfl⟩, ?_, by simp, _,
      ⟨first, one, _, ⟨_, stays _, last, three, rfl⟩, rfl⟩, ?_⟩
    · intro wants
      obtain ⟨⟨former, _⟩, latter⟩ := scalars wants
      exact ⟨former, isBooleanTyped_of_wantsScalars wants op _, latter⟩
    · rw [flatten_substituted many (placed' one) (ne_nil_of_mapM two some)]
  · rintro ⟨_, ⟨inside, _, middle, two, rfl⟩, scalars, _, _,
      ⟨first, one, _, ⟨_, same, last, three, rfl⟩, rfl⟩, rfl⟩
    rw [stays] at same
    cases same
    refine ⟨?_, by simp [some], _, ⟨_, ⟨first, one, middle, two, rfl⟩, last, three, rfl⟩, ?_⟩
    · intro wants
      obtain ⟨former, _, latter⟩ := scalars wants
      exact ⟨⟨former, inside wants⟩, latter⟩
    · rw [flatten_substituted many (placed' one) (ne_nil_of_mapM two some)]

end Many

namespace Grouping

section

variable (family : Family) (op : Operator)

/-- Where the operator takes groups in, it makes the same of the part once it is built as of its
operands. -/
def Replaceable (part : Grouping) : Prop :=
  ∀ before after node, (op.isAssociative = true ∨ before = [] ∨ part.IsOperand) →
    (Expr.apply family op (before ++ part.operands ++ after) = .ok node ↔
      ∃ x, part.build family op = .ok x ∧ Expr.apply family op (before ++ x :: after) = .ok node)

theorem replaceable_operand (e : Expr) : Replaceable family op (operand e) := by
  intro before after node _
  simp [operands, build]

end

variable {family : Family} {op : Operator}

theorem replaceable_group (many : op.arity = .many) {parts : List Grouping}
    (some : operandsAll parts ≠ [])
    (built : ∀ x, (group parts).build family op = .ok x ↔
      Expr.apply family op (operandsAll parts) = .ok x) :
    Replaceable family op (group parts) := by
  intro before after node placed
  have leads : op.isAssociative = true ∨ before = [] := by
    rcases placed with associative | leads | ⟨e, single⟩
    · exact .inl associative
    · exact .inr leads
    · cases single
  simp only [operands, built]
  exact apply_substituted many leads some

theorem apply_parts {parts : List Grouping} (before : List Expr) {node : Expr}
    (each : ∀ part ∈ parts, Replaceable family op part)
    (later : op.isAssociative = true ∨ ∀ part ∈ parts.tail, part.IsOperand)
    (placed : op.isAssociative = true ∨ before = [] ∨ ∀ part ∈ parts, part.IsOperand) :
    Expr.apply family op (before ++ operandsAll parts) = .ok node ↔
      ∃ built, buildAll family op parts = .ok built ∧
        Expr.apply family op (before ++ built) = .ok node := by
  induction parts generalizing before with
  | nil => simp [operandsAll, buildAll]
  | cons part rest ih =>
    rw [List.forall_mem_cons] at each placed
    have fits : op.isAssociative = true ∨ before = [] ∨ part.IsOperand :=
      placed.imp_right fun placed => placed.imp_right And.left
    have behind : op.isAssociative = true ∨ ∀ other ∈ rest.tail, other.IsOperand :=
      later.imp_right fun operands other member => operands other (List.mem_of_mem_tail member)
    have following (x : Expr) :
        Expr.apply family op (before ++ x :: operandsAll rest) = .ok node ↔
          ∃ built, buildAll family op rest = .ok built ∧
            Expr.apply family op (before ++ x :: built) = .ok node := by
      simpa using ih (before ++ [x]) each.2 behind (later.imp_right .inr)
    rw [operandsAll, ← List.append_assoc, each.1 before _ node fits]
    simp only [following, buildAll, bind_eq_ok_iff, pure_eq_ok_iff]
    constructor
    · rintro ⟨x, first, built, others, applied⟩
      exact ⟨x :: built, ⟨x, first, built, others, rfl⟩, applied⟩
    · rintro ⟨_, ⟨x, first, built, others, rfl⟩, applied⟩
      exact ⟨x, first, built, others, applied⟩

theorem build_group {parts : List Grouping} {node : Expr}
    (each : ∀ part ∈ parts, Replaceable family op part)
    (later : op.isAssociative = true ∨ ∀ part ∈ parts.tail, part.IsOperand) :
    (group parts).build family op = .ok node ↔
      Expr.apply family op (operandsAll parts) = .ok node := by
  rw [build, bind_eq_ok_iff]
  exact (apply_parts [] each later (.inr (.inl rfl))).symm

theorem LeftNested.parts {parts : List Grouping}
    (grouped : op.isAssociative = true ∨ (Grouping.group parts).LeftNested) :
    (∀ part ∈ parts, op.isAssociative = true ∨ part.LeftNested) ∧
      (op.isAssociative = true ∨ ∀ part ∈ parts.tail, part.IsOperand) := by
  rcases grouped with associative | nested
  · exact ⟨fun _ _ => .inl associative, .inl associative⟩
  · cases nested with
    | group inside later => exact ⟨fun part member => .inr (inside part member), .inr later⟩

theorem replaceable_of_filled (many : op.arity = .many) {part : Grouping} (filled : part.Filled)
    (grouped : op.isAssociative = true ∨ part.LeftNested) : Replaceable family op part := by
  induction filled with
  | operand e => exact replaceable_operand family op e
  | @group parts some filled ih =>
    obtain ⟨inside, later⟩ := LeftNested.parts grouped
    refine replaceable_group many (Filled.group some filled).operands_ne_nil fun x => ?_
    exact build_group (fun part member => ih part member (inside part member)) later

/-- Groups may be built first or not: the same operands make the same node or none. -/
theorem build_eq_ok_iff (many : op.arity = .many) {parts : List Grouping}
    (filled : (group parts).Filled)
    (grouped : op.isAssociative = true ∨ (group parts).LeftNested) (node : Expr) :
    (group parts).build family op = .ok node ↔
      Expr.apply family op (group parts).operands = .ok node := by
  obtain ⟨inside, later⟩ := LeftNested.parts grouped
  cases filled with
  | group _ each =>
    refine build_group ?_ later
    intro part member
    exact replaceable_of_filled many (each part member) (inside part member)

theorem build_eq_ok_iff_nested :
    (group [operand (.identifier "a"), group [group [operand (.conditions .mapping
        [(.identifier "b", .value .null)])], operand (.identifier "c")]]).build .boolean .or =
      .ok (.complex .boolean .or [.identifier "a",
        .complex .boolean .is [.identifier "b", .value .null], .identifier "c"]) ∧
    (group [group [operand (.identifier "a"), operand (.value (.integer 1))],
        operand (.identifier "b")]).build .numeric .sub =
      .ok (.complex .numeric .sub [.identifier "a", .value (.integer 1), .identifier "b"]) := by
  have leaf (e : Expr) : (operand e).Filled := .operand e
  have conditions : (group [operand (.identifier "a"), group [group [operand (.conditions .mapping
      [(.identifier "b", .value .null)])], operand (.identifier "c")]]).Filled := by
    have single : (group [operand (.conditions .mapping [(.identifier "b", .value .null)])]).Filled :=
      .group (by simp) (by simp [leaf])
    have inner : (group [group [operand (.conditions .mapping [(.identifier "b", .value .null)])],
        operand (.identifier "c")]).Filled := .group (by simp) (by simp [single, leaf])
    exact .group (by simp) (by simp [inner, leaf])
  have difference : (group [group [operand (.identifier "a"), operand (.value (.integer 1))],
      operand (.identifier "b")]).Filled := by
    have inner : (group [operand (.identifier "a"), operand (.value (.integer 1))]).Filled :=
      .group (by simp) (by simp [leaf])
    exact .group (by simp) (by simp [inner, leaf])
  have nested : (group [group [operand (.identifier "a"), operand (.value (.integer 1))],
      operand (.identifier "b")]).LeftNested := by
    have alone (e : Expr) : (operand e).LeftNested := .operand e
    have inner : (group [operand (.identifier "a"), operand (.value (.integer 1))]).LeftNested :=
      .group (by simp [alone]) (by simp [IsOperand])
    exact .group (by simp [inner, alone]) (by simp [IsOperand])
  exact ⟨(build_eq_ok_iff rfl conditions (.inl rfl) _).mpr rfl,
    (build_eq_ok_iff rfl difference (.inr nested) _).mpr rfl⟩

end Grouping

end SqlExpr
