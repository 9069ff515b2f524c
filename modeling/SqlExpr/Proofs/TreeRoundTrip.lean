import SqlExpr.Proofs.Throughout
import SqlExpr.Tree.Decode
import SqlExpr.Tree.Encode

/-!
The JSON tree of an expression is read back as the same expression, whether a builder would make it or
not. Only floats that are no finite numbers are lost.
-/

namespace SqlExpr

/-! The depth of JSON trees. -/

theorem Json.depth_le_depthAll {items : List Json} {item : Json} (member : item ∈ items) :
    item.depth ≤ Json.depthAll items := by
  induction items with
  | nil => cases member
  | cons first rest ih =>
    rw [Json.depthAll]
    rcases List.mem_cons.mp member with rfl | member
    · omega
    · have later := ih member
      omega

namespace Expr

/-- A float has a place in JSON. -/
def hasFiniteFloat : Expr → Prop
  | value (.float x) => x.isFinite = true
  | _ => True

theorem toJsons_eq_map (items : List Expr) : toJsons items = items.map toJson := by
  induction items with
  | nil => simp [toJsons]
  | cons e rest ih => simp [toJsons, ih]

def pairJson (pair : Expr × Expr) : Json :=
  .array [pair.1.toJson, pair.2.toJson]

theorem pairJsons_eq_map (pairs : List (Expr × Expr)) : pairJsons pairs = pairs.map pairJson := by
  induction pairs with
  | nil => simp [pairJsons]
  | cons pair rest ih => simp [pairJsons, pairJson, ih]

def namedJson (arg : String × Expr) : Json :=
  .array [.string arg.1, arg.2.toJson]

theorem namedJsons_eq_map (args : List (String × Expr)) : namedJsons args = args.map namedJson := by
  induction args with
  | nil => simp [namedJsons]
  | cons arg rest ih => simp [namedJsons, namedJson, ih]

theorem toJson_ne_null (e : Expr) : e.toJson ≠ .null := by
  cases e <;> simp [toJson, Tree.tagged]

/-! The tree of a part is less deep than that of the whole. -/

theorem depth_toJsons {items : List Expr} {item : Expr} (member : item ∈ items) :
    item.toJson.depth ≤ Json.depthAll (toJsons items) := by
  rw [toJsons_eq_map]
  exact Json.depth_le_depthAll (List.mem_map_of_mem member)

theorem depth_pairJsons {pairs : List (Expr × Expr)} {side : Expr} (member : side ∈ sides pairs) :
    side.toJson.depth ≤ Json.depthAll (pairJsons pairs) := by
  obtain ⟨pair, inside, which⟩ := mem_sides.mp member
  have outer : (pairJson pair).depth ≤ Json.depthAll (pairJsons pairs) := by
    rw [pairJsons_eq_map]
    exact Json.depth_le_depthAll (List.mem_map_of_mem inside)
  simp only [pairJson, Json.depth, Json.depthAll] at outer
  rcases which with rfl | rfl <;> omega

theorem depth_argsJson {args : PlaceholderArgs Expr} {item : Expr} (member : item ∈ args.items) :
    item.toJson.depth ≤ (argsJson args).depth := by
  cases args with
  | positional args =>
    have inside : item.toJson.depth ≤ Json.depthAll (toJsons args) := depth_toJsons member
    simp only [argsJson, Tree.tagged, Json.depth, Json.depthEntries]
    omega
  | named args =>
    obtain ⟨arg, inside, rfl⟩ := List.mem_map.mp member
    have outer : (namedJson arg).depth ≤ Json.depthAll (namedJsons args) := by
      rw [namedJsons_eq_map]
      exact Json.depth_le_depthAll (List.mem_map_of_mem inside)
    simp only [namedJson, Json.depth, Json.depthAll] at outer
    simp only [argsJson, Tree.tagged, Json.depth, Json.depthEntries]
    omega

theorem depth_conditionJson {condition : JoinCondition Expr} {item : Expr}
    (member : item ∈ condition.items) : item.toJson.depth ≤ (conditionJson condition).depth := by
  cases condition with
  | unconstrained => cases member
  | onPredicate predicate =>
    rw [List.mem_singleton.mp member]
    simp only [conditionJson, Tree.tagged, Json.depth, Json.depthEntries]
    omega
  | usingColumns columns =>
    have inside : item.toJson.depth ≤ Json.depthAll (toJsons columns) := depth_toJsons member
    simp only [conditionJson, Tree.tagged, Json.depth, Json.depthEntries]
    omega

theorem depth_toJson_lt {e child : Expr} (member : child ∈ e.children) :
    child.toJson.depth < e.toJson.depth := by
  cases e <;> simp only [children, List.mem_cons, List.mem_append, List.not_mem_nil,
    or_false] at member <;>
    simp only [toJson, Tree.tagged, complexJson, Json.depth, Json.depthEntries]
  case list | complex | call =>
    have inside := depth_toJsons member
    omega
  case conditions =>
    have inside := depth_pairJsons member
    omega
  case qualified =>
    rcases member with rfl | rfl <;> omega
  case columnAll | aliased | cast | ordered =>
    subst member
    omega
  case subscript =>
    rcases member with rfl | member
    · omega
    · have inside := depth_toJsons member
      omega
  case caseWhen branches otherwise subject =>
    rcases member with (member | member) | rfl
    · rw [Option.mem_toList] at member
      subst member
      simp only [optionJson]
      omega
    · have inside := depth_pairJsons member
      omega
    · omega
  case placeholder template args parenthesize =>
    have inside := depth_argsJson member
    omega
  case join kind table label condition =>
    rcases member with rfl | member
    · omega
    · have inside := depth_conditionJson member
      omega

end Expr

/-! What each part of a node is read as. -/

namespace Tree

theorem list?_array {α : Type} {read : Json → Option α} {write : α → Json} {items : List α}
    (each : ∀ item ∈ items, read (write item) = some item) :
    list? read (.array (items.map write)) = some items := by
  induction items with
  | nil => rfl
  | cons item rest ih =>
    rw [List.forall_mem_cons] at each
    have others : (rest.map write).mapM read = some rest := ih each.2
    simp [list?, each.1, others]

theorem pair?_array {α β : Type} {readFirst : Json → Option α} {readSecond : Json → Option β}
    {first second : Json} {a : α} {b : β} (one : readFirst first = some a)
    (two : readSecond second = some b) :
    pair? readFirst readSecond (.array [first, second]) = some (a, b) := by
  simp [pair?, one, two]

theorem optional?_of_ne_null {α : Type} {read : Json → Option α} {held : Json}
    (some : held ≠ .null) : optional? read held = (read held).map .some := by
  cases held <;> first | rfl | exact absurd rfl some

theorem operator?_name (op : Operator) : operator? (.string op.name) = some op :=
  Operator.ofName?_name op

theorem family?_name (family : Family) : family? (.string family.name) = some family := by
  cases family <;> rfl

theorem conditionsKind?_name (kind : ConditionsKind) :
    conditionsKind? (.string kind.name) = some kind := by
  cases kind <;> rfl

theorem constant?_name (c : NamedConstant) : constant? (.string c.name) = some c := by
  cases c <;> rfl

theorem joinKind?_name (kind : JoinKind) : joinKind? (.string kind.name) = some kind := by
  cases kind <;> rfl

theorem optional_nulls (nulls : Option NullsPlacement) :
    optional? nulls? (optional (fun nulls => .string nulls.name) nulls) = some nulls := by
  rcases nulls with _ | nulls
  · rfl
  · cases nulls <;> rfl

theorem byte?_natural (byte : UInt8) : byte? (natural byte.toNat) = some byte := by
  have small := byte.toNat_lt
  have same : (Int64.ofNat byte.toNat).toInt = byte.toNat := Int64.toInt_ofNat_of_lt (by omega)
  have bounds : 0 ≤ Int64.ofNat byte.toNat ∧ Int64.ofNat byte.toNat < 256 := by
    rw [Int64.le_iff_toInt_le, Int64.lt_iff_toInt_lt, same, Int64.toInt_zero]
    have greatest : (256 : Int64).toInt = 256 := rfl
    omega
  change (if _ then some (Int64.ofNat byte.toNat).toInt.toNat.toUInt8 else none) = some byte
  rw [if_pos bounds, same, Int.toNat_natCast]
  simp

theorem strings?_array (names : List String) :
    list? Json.string? (.array (names.map .string)) = some names :=
  list?_array fun _ _ => rfl

theorem optional_columns (columns : Option (List String)) :
    optional? (list? Json.string?) (optional (fun names => .array (names.map .string)) columns) =
      some columns := by
  cases columns with
  | none => rfl
  | some names =>
    rw [optional, optional?_of_ne_null (by simp), strings?_array]
    rfl

theorem value?_toJson {v : Value} (finite : (Expr.value v).hasFiniteFloat) :
    value? v.toJson = some v := by
  cases v with
  | float x =>
    have finite : x.isFinite = true := finite
    have written : Value.toJson (.float x) = tagged "Float" (.number (.float x)) := by
      rw [Value.toJson, Tree.float, if_pos finite]
    rw [written]
    rfl
  | blob bytes =>
    have read := list?_array fun byte (_ : byte ∈ bytes) => byte?_natural byte
    change (list? byte? _).map Value.blob = _
    rw [read]
    rfl
  | _ => rfl

theorem pattern?_toJson (p : Pattern) : pattern? p.toJson = some p := by
  cases p <;> rfl

theorem truth?_truthJson (truth : Option Bool) : optional? Json.bool? (truthJson truth) = some truth := by
  cases truth <;> rfl

section

variable {expr? : Json → Option Expr}

theorem exprs?_toJsons {items : List Expr} (each : ∀ item ∈ items, expr? item.toJson = some item) :
    list? expr? (.array (Expr.toJsons items)) = some items := by
  rw [Expr.toJsons_eq_map]
  exact list?_array each

theorem pairs?_pairJsons {pairs : List (Expr × Expr)}
    (each : ∀ side ∈ Expr.sides pairs, expr? side.toJson = some side) :
    list? (pair? expr? expr?) (.array (Expr.pairJsons pairs)) = some pairs := by
  rw [Expr.pairJsons_eq_map]
  apply list?_array
  intro pair member
  exact pair?_array (each pair.1 (Expr.mem_sides.mpr ⟨pair, member, .inl rfl⟩))
    (each pair.2 (Expr.mem_sides.mpr ⟨pair, member, .inr rfl⟩))

theorem placeholderArgs?_argsJson {args : PlaceholderArgs Expr}
    (each : ∀ item ∈ args.items, expr? item.toJson = some item) :
    placeholderArgs? expr? (Expr.argsJson args) = some args := by
  cases args with
  | positional args =>
    have read : list? expr? (.array (Expr.toJsons args)) = some args := exprs?_toJsons each
    change (list? expr? (.array (Expr.toJsons args))).map PlaceholderArgs.positional = _
    rw [read]
    rfl
  | named args =>
    have read : list? (pair? Json.string? expr?) (.array (Expr.namedJsons args)) = some args := by
      rw [Expr.namedJsons_eq_map]
      apply list?_array
      intro arg member
      exact pair?_array rfl (each arg.2 (List.mem_map_of_mem member))
    change (list? (pair? Json.string? expr?) (.array (Expr.namedJsons args))).map
      PlaceholderArgs.named = _
    rw [read]
    rfl

theorem joinCondition?_conditionJson {condition : JoinCondition Expr}
    (each : ∀ item ∈ condition.items, expr? item.toJson = some item) :
    joinCondition? expr? (Expr.conditionJson condition) = some condition := by
  cases condition with
  | unconstrained => rfl
  | onPredicate predicate =>
    change (expr? predicate.toJson).map JoinCondition.onPredicate = _
    rw [each predicate (by simp [JoinCondition.items])]
    rfl
  | usingColumns columns =>
    have read : list? expr? (.array (Expr.toJsons columns)) = some columns := exprs?_toJsons each
    change (list? expr? (.array (Expr.toJsons columns))).map JoinCondition.usingColumns = _
    rw [read]
    rfl

theorem subject?_optionJson {subject : Option Expr}
    (each : ∀ e ∈ subject, expr? e.toJson = some e) :
    optional? expr? (Expr.optionJson subject) = some subject := by
  cases subject with
  | none => rfl
  | some e =>
    rw [Expr.optionJson, optional?_of_ne_null (Expr.toJson_ne_null e), each e rfl]
    rfl

theorem node?_toJson {e : Expr} (finite : e.hasFiniteFloat)
    (each : ∀ child ∈ e.children, expr? child.toJson = some child) :
    node? expr? e.toJson = some e := by
  cases e
  case value v =>
    change (value? v.toJson).map Expr.value = _
    rw [value?_toJson finite]
    rfl
  case list items =>
    simp only [Expr.children] at each
    change (list? expr? (.array (Expr.toJsons items))).map Expr.list = _
    rw [exprs?_toJsons each]
    rfl
  case conditions kind pairs =>
    have fields : node? expr? (Expr.conditions kind pairs).toJson = (do
        let kind ← conditionsKind? (.string kind.name)
        let pairs ← list? (pair? expr? expr?) (.array (Expr.pairJsons pairs))
        return .conditions kind pairs) := rfl
    rw [fields, conditionsKind?_name, pairs?_pairJsons each]
    rfl
  case pattern p =>
    change (pattern? p.toJson).map Expr.pattern = _
    rw [pattern?_toJson]
    rfl
  case qualified table column =>
    have fields : node? expr? (Expr.qualified table column).toJson = (do
        let table ← expr? table.toJson
        let column ← expr? column.toJson
        return .qualified table column) := rfl
    rw [fields, each table (by simp [Expr.children]), each column (by simp [Expr.children])]
    rfl
  case columnAll table =>
    have fields : node? expr? (Expr.columnAll table).toJson = (do
        let table ← expr? table.toJson
        return .columnAll table) := rfl
    rw [fields, each table (by simp [Expr.children])]
    rfl
  case aliased expr label columns =>
    have fields : node? expr? (Expr.aliased expr label columns).toJson = (do
        let expr ← expr? expr.toJson
        let columns ← optional? (list? Json.string?)
          (optional (fun names => .array (names.map .string)) columns)
        return .aliased expr label columns) := rfl
    rw [fields, each expr (by simp [Expr.children]), optional_columns]
    rfl
  case complex family op args =>
    simp only [Expr.children] at each
    have fields : node? expr? (Expr.complex family op args).toJson = (do
        let family ← family? (.string family.name)
        let op ← operator? (.string op.name)
        let args ← list? expr? (.array (Expr.toJsons args))
        return .complex family op args) := rfl
    rw [fields, family?_name, operator?_name, exprs?_toJsons each]
    rfl
  case call name args distinct star =>
    simp only [Expr.children] at each
    have fields : node? expr? (Expr.call name args distinct star).toJson = (do
        let args ← list? expr? (.array (Expr.toJsons args))
        return .call name args distinct star) := rfl
    rw [fields, exprs?_toJsons each]
    rfl
  case cast expr typeName =>
    have fields : node? expr? (Expr.cast expr typeName).toJson = (do
        let expr ← expr? expr.toJson
        return .cast expr typeName) := rfl
    rw [fields, each expr (by simp [Expr.children])]
    rfl
  case subscript expr indices =>
    simp only [Expr.children, List.forall_mem_cons] at each
    have fields : node? expr? (Expr.subscript expr indices).toJson = (do
        let expr ← expr? expr.toJson
        let indices ← list? expr? (.array (Expr.toJsons indices))
        return .subscript expr indices) := rfl
    rw [fields, each.1, exprs?_toJsons each.2]
    rfl
  case caseWhen branches otherwise subject =>
    simp only [Expr.children, List.forall_mem_append, Option.mem_toList] at each
    obtain ⟨⟨under, pairs⟩, last⟩ := each
    have fields : node? expr? (Expr.caseWhen branches otherwise subject).toJson = (do
        let branches ← list? (pair? expr? expr?) (.array (Expr.pairJsons branches))
        let otherwise ← expr? otherwise.toJson
        let subject ← optional? expr? (Expr.optionJson subject)
        return .caseWhen branches otherwise subject) := rfl
    rw [fields, pairs?_pairJsons pairs, last otherwise (by simp), subject?_optionJson under]
    rfl
  case ordered expr descending nulls =>
    have fields : node? expr? (Expr.ordered expr descending nulls).toJson = (do
        let expr ← expr? expr.toJson
        let nulls ← optional? nulls? (optional (fun nulls => .string nulls.name) nulls)
        return .ordered expr descending nulls) := rfl
    rw [fields, each expr (by simp [Expr.children]), optional_nulls]
    rfl
  case constant c =>
    change (constant? (.string c.name)).map Expr.constant = _
    rw [constant?_name]
    rfl
  case isConstant truth =>
    change (optional? Json.bool? (truthJson truth)).map Expr.isConstant = _
    rw [truth?_truthJson]
    rfl
  case isNotConstant truth =>
    change (optional? Json.bool? (truthJson truth)).map Expr.isNotConstant = _
    rw [truth?_truthJson]
    rfl
  case placeholder template args parenthesize =>
    have fields : node? expr? (Expr.placeholder template args parenthesize).toJson = (do
        let args ← placeholderArgs? expr? (Expr.argsJson args)
        return .placeholder template args parenthesize) := rfl
    rw [fields, placeholderArgs?_argsJson each]
    rfl
  case join kind table label condition =>
    simp only [Expr.children, List.forall_mem_cons] at each
    have fields : node? expr? (Expr.join kind table label condition).toJson = (do
        let kind ← joinKind? (.string kind.name)
        let table ← expr? table.toJson
        let label ← optional? Json.string? (optional .string label)
        let condition ← joinCondition? expr? (Expr.conditionJson condition)
        return .join kind table label condition) := rfl
    rw [fields, joinKind?_name, each.1, joinCondition?_conditionJson each.2]
    cases label <;> rfl
  all_goals rfl

end

theorem readWithin?_toJson {e : Expr} {level : Nat} (finite : e.Throughout Expr.hasFiniteFloat)
    (deep : e.toJson.depth < level) : readWithin? level e.toJson = some e := by
  induction e using Expr.childrenInduction generalizing level with
  | step e ih =>
    obtain ⟨level, rfl⟩ : ∃ below, level = below + 1 := ⟨level - 1, by omega⟩
    rw [readWithin?]
    apply node?_toJson finite.here
    intro child member
    have smaller := Expr.depth_toJson_lt member
    exact ih child member (finite.child member) (by omega)

end Tree

namespace Expr

/-- The tree of an expression is read back as this expression, so that no other has the same tree. -/
theorem ofJson?_toJson {e : Expr} (finite : e.Throughout hasFiniteFloat) :
    ofJson? e.toJson = some e ∧
      ∀ other : Expr, other.Throughout hasFiniteFloat → other.toJson = e.toJson → other = e := by
  have read {e : Expr} (finite : e.Throughout hasFiniteFloat) : ofJson? e.toJson = some e :=
    Tree.readWithin?_toJson finite (Nat.lt_succ_self _)
  refine ⟨read finite, ?_⟩
  intro other finite' same
  have first := read finite'
  rw [same, read finite] at first
  cases first
  rfl

theorem ofJson?_toJson_unbuilt :
    ofJson? (join .left (complex .boolean .and []) none
        (.onPredicate (caseWhen [] (isConstant none) none))).toJson =
      some (join .left (complex .boolean .and []) none
        (.onPredicate (caseWhen [] (isConstant none) none))) := by
  have childless (e : Expr) (finite : e.hasFiniteFloat) (none : e.children = []) :
      e.Throughout hasFiniteFloat := .intro finite (by simp [none])
  have connective := childless (complex .boolean .and []) trivial rfl
  have otherwise := childless (isConstant none) trivial rfl
  have cases : (caseWhen [] (isConstant none) none).Throughout hasFiniteFloat :=
    .intro trivial (by simp [children, sides, otherwise])
  have finite : (join .left (complex .boolean .and []) none
      (.onPredicate (caseWhen [] (isConstant none) none))).Throughout hasFiniteFloat :=
    .intro trivial (by simp [children, JoinCondition.items, connective, cases])
  exact (ofJson?_toJson finite).1

end Expr

end SqlExpr
