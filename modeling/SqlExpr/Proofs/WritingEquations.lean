import SqlExpr.Proofs.Writability

/-!
Writing without levels. Conditions are written as the predicate that they stand for, and it holds no
other conditions than those that stood inside them. So the level to which conditions are written does
not matter from the depth of an expression on, and every text is made of the texts of the parts.
-/

namespace SqlExpr

namespace Expr

theorem depth_le_depthNamed {args : List (String × Expr)} {e : Expr}
    (member : e ∈ args.map (·.2)) : e.depth ≤ depthNamed args := by
  induction args with
  | nil => cases member
  | cons arg rest ih =>
    rw [depthNamed]
    rcases List.mem_cons.mp member with rfl | member
    · exact Nat.le_max_left _ _
    · exact Nat.le_trans (ih member) (Nat.le_max_right _ _)

theorem depth_le_depthArgs {args : PlaceholderArgs Expr} {e : Expr} (member : e ∈ args.items) :
    e.depth ≤ depthArgs args := by
  cases args with
  | positional args =>
    rw [depthArgs]
    exact depth_le_depthAll member
  | named args =>
    rw [depthArgs]
    exact depth_le_depthNamed member

theorem depth_le_depthCondition {condition : JoinCondition Expr} {e : Expr}
    (member : e ∈ condition.items) : e.depth ≤ depthCondition condition := by
  cases condition with
  | unconstrained => cases member
  | onPredicate predicate =>
    obtain rfl := List.mem_singleton.mp member
    exact Nat.le_of_eq (by rw [depthCondition])
  | usingColumns columns =>
    rw [depthCondition]
    exact depth_le_depthAll member

theorem depth_lt_of_mem_children {e child : Expr} (member : child ∈ e.children) :
    child.depth < e.depth := by
  cases e <;> simp only [children, List.mem_cons, List.mem_append, List.not_mem_nil,
    or_false] at member
  case list | complex | call =>
    have bound := depth_le_depthAll member
    rw [depth]
    omega
  case conditions =>
    have bound := depth_le_depthPairs member
    rw [depth]
    omega
  case qualified =>
    rw [depth]
    rcases member with rfl | rfl <;> omega
  case columnAll | aliased | cast | ordered =>
    subst member
    rw [depth]
    omega
  case subscript =>
    rw [depth]
    rcases member with rfl | member
    · omega
    · have bound := depth_le_depthAll member
      omega
  case caseWhen branches otherwise subject =>
    rw [depth]
    rcases member with (member | member) | rfl
    · rw [Option.mem_toList] at member
      subst member
      rw [depthOption]
      omega
    · have bound := depth_le_depthPairs member
      omega
    · omega
  case placeholder =>
    have bound := depth_le_depthArgs member
    rw [depth]
    omega
  case join =>
    rw [depth]
    rcases member with rfl | member
    · omega
    · have bound := depth_le_depthCondition member
      omega

/-- Conditions stand inside one another at most as often as the bound says. -/
inductive Layered : Nat → Expr → Prop
  | plain {bound : Nat} {e : Expr} : (∀ kind pairs, e ≠ conditions kind pairs) →
      (∀ child ∈ e.children, Layered bound child) → Layered bound e
  | conditions {bound : Nat} {kind : ConditionsKind} {pairs : List (Expr × Expr)} :
      (∀ side ∈ sides pairs, Layered bound side) → Layered (bound + 1) (conditions kind pairs)

namespace Layered

theorem mono {bound bound' : Nat} {e : Expr} (h : Layered bound e) (le : bound ≤ bound') :
    Layered bound' e := by
  induction h generalizing bound' with
  | plain other _ ih => exact .plain other fun child member => ih child member le
  | conditions _ ih =>
    obtain ⟨larger, rfl⟩ : ∃ larger, bound' = larger + 1 := ⟨bound' - 1, by omega⟩
    exact .conditions fun side member => ih side member (by omega)

theorem child {bound : Nat} {e child : Expr} (h : Layered bound e) (member : child ∈ e.children) :
    Layered bound child := by
  cases h with
  | plain _ inside => exact inside child member
  | conditions inside => exact (inside child member).mono (Nat.le_succ _)

theorem sides {bound : Nat} {kind : ConditionsKind} {pairs : List (Expr × Expr)}
    (h : Layered (bound + 1) (.conditions kind pairs)) :
    ∀ side ∈ Expr.sides pairs, Layered bound side := by
  cases h with
  | plain other _ => exact absurd rfl (other kind pairs)
  | conditions inside => exact inside

theorem exists_succ {bound : Nat} {kind : ConditionsKind} {pairs : List (Expr × Expr)}
    (h : Layered bound (.conditions kind pairs)) : ∃ inner, bound = inner + 1 := by
  cases h with
  | plain other _ => exact absurd rfl (other kind pairs)
  | conditions => exact ⟨_, rfl⟩

theorem of_standsIn {bound : Nat} {e node : Expr} (h : Layered bound e) (stands : node.StandsIn e) :
    Layered bound node := by
  induction stands with
  | here => exact h
  | inside member _ ih => exact ih (h.child member)

theorem atDepth (e : Expr) : Layered e.depth e := by
  induction e using childrenInduction with
  | step e ih =>
    have inside (child : Expr) (member : child ∈ e.children) :
        Layered (e.depth - 1) child := by
      have smaller := depth_lt_of_mem_children member
      exact (ih child member).mono (by omega)
    by_cases specifier : ∃ kind pairs, e = .conditions kind pairs
    · obtain ⟨kind, pairs, rfl⟩ := specifier
      rw [depth] at inside ⊢
      exact .conditions inside
    · refine .plain (by simpa using specifier) ?_
      intro child member
      exact (inside child member).mono (Nat.sub_le _ _)

theorem childless {bound : Nat} {e : Expr} (other : ∀ kind pairs, e ≠ .conditions kind pairs)
    (none : e.children = []) : Layered bound e :=
  .plain other (by simp [none])

theorem complex {bound : Nat} {family : Family} {op : Operator} {args : List Expr}
    (every : ∀ arg ∈ args, Layered bound arg) : Layered bound (.complex family op args) :=
  .plain (by simp) every

theorem arrange {bound : Nat} {op : Operator} {settled : List Expr}
    (every : ∀ arg ∈ settled, Layered bound arg) :
    ∀ arg ∈ op.arrange settled, Layered bound arg := by
  refine forall_mem_arrange every ?_ ?_
  · intro family e h
    exact h.child (by simp [children])
  · intro family args h arg member
    exact h.child member

/-! What negation and synthesis make holds no conditions inside more others than before. -/

theorem absent_predicate {bound : Nat} {op : Operator} {args : List Expr} {p : Predicate}
    (every : ∀ arg ∈ args, Layered bound arg)
    (found : SpecifierReading.absent.predicate op args = .ok p) : Layered bound p.toExpr := by
  obtain ⟨_, settled, settles, rfl⟩ := Predicate.assemble_eq_ok_iff.mp found
  have same : settle op (args.map SpecifierReading.absent.operand) = .ok args :=
    settle_map_plain op args
  rw [same] at settles
  cases settles
  exact complex (arrange every)

theorem absent_invert {bound : Nat} {e r : Expr} (held : Layered bound e)
    (found : SpecifierReading.absent.invert e = .ok r) : Layered bound r := by
  induction e using childrenInduction generalizing r with
  | step e ih =>
    cases SpecifierReading.negates_of_invert found with
    | node _ swapped =>
      obtain ⟨other, _, ⟨_, negated, inverted, applied⟩ | ⟨_, applied⟩⟩ :=
        SpecifierReading.invertNode_eq_ok_iff.mp swapped
      · refine absent_predicate (forall_of_mapM inverted ?_) applied
        intro arg member r found
        exact ih arg member (held.child member) found
      · exact absent_predicate (fun arg member => held.child member) applied
    | truth | null | opposite => exact childless (by simp) rfl
    | specifier _ negated => cases negated
    | leaf _ wrapped => exact absent_predicate (by simpa using held) wrapped

theorem named (bound : Nat) (name : String) : Layered bound (.named name) := by
  have identifier (name : String) : Layered bound (.identifier name) := childless (by simp) rfl
  unfold Expr.named
  split
  · split
    · exact identifier name
    · refine .plain (by simp) ?_
      simpa [children] using ⟨identifier _, identifier _⟩
  · exact identifier name

theorem qualify {bound : Nat} {table column : Expr} (first : Layered bound table)
    (second : Layered bound column) : Layered bound (.qualify table column) := by
  have part {e : Expr} (h : Layered bound e) : Layered bound e.qualifierPart := by
    unfold qualifierPart
    split
    · exact childless (by simp) rfl
    · exact h
  refine .plain (by simp [Expr.qualify]) ?_
  simpa [Expr.qualify, children] using ⟨part first, part second⟩

theorem synthesisInvariant (bound : Nat) :
    SynthesisInvariant (Layered bound) (Layered bound) (Layered bound ·.toExpr) where
  toExpr _ h := h
  kept_of_good _ h := h
  value _ := childless (by simp) rfl
  items _ h _ member := h.child member
  pairs _ _ h _ member := h.child member
  asList pairs h := by
    refine .plain (by simp [Conditions.asList]) ?_
    intro item member
    obtain ⟨pair, inside, rfl⟩ := List.mem_map.mp member
    refine .plain (by simp [ofPair]) ?_
    intro side within
    apply h.child
    exact mem_sides.mpr ⟨pair, inside, by simpa [ofPair, children] using within⟩
  columns key h column member := by
    rcases mem_columns member with rfl | ⟨name, rfl⟩ | ⟨table, names, name, rfl, rfl⟩
    · exact h
    · exact named bound name
    · exact qualify (h.child (by simp [children])) (childless (by simp) rfl)
  qualify _ _ first second := qualify first second
  apply op args p _ read kept found := by
    obtain ⟨_, settled, settles, rfl⟩ := Predicate.apply_eq_ok_iff.mp found
    refine complex (arrange (forall_mem_of_settle settles ?_ kept))
    intro arg member
    exact (read arg member).2
  opposite p q h found := by
    refine absent_invert h ?_
    rw [Predicate.absent_invert_toExpr, found]
    rfl

end Layered

end Expr

namespace Rendering

/-! Texts are made of the texts of the conditions in an expression, and of nothing else. -/

section Congruence

variable {r r' : Rendering}

theorem texts_congr (items : List Expr) (each : ∀ item ∈ items, r.write item = r'.write item) :
    texts r items = texts r' items := by
  rw [texts_eq_map, texts_eq_map]
  exact List.map_congr_left each

theorem subjectText_congr {subject : Option Expr}
    (each : ∀ e ∈ subject, r.write e = r'.write e) :
    subjectText r subject = subjectText r' subject := by
  cases subject with
  | none => rw [subjectText, subjectText]
  | some subject => rw [subjectText, subjectText, each subject rfl]

theorem branchTexts_congr {branches : List (Expr × Expr)}
    (each : ∀ side ∈ Expr.sides branches, r.write side = r'.write side) :
    branchTexts r branches = branchTexts r' branches := by
  rw [branchTexts_eq_map, branchTexts_eq_map]
  refine List.map_congr_left fun branch member => ?_
  have side (e : Expr) (which : e = branch.1 ∨ e = branch.2) : r.write e = r'.write e :=
    each e (Expr.mem_sides.mpr ⟨branch, member, which⟩)
  simp only [side branch.1 (.inl rfl), side branch.2 (.inr rfl)]

theorem filled_congr (template : String) {args : PlaceholderArgs Expr}
    (each : ∀ arg ∈ args.items, r.write arg = r'.write arg) :
    filled r template args = filled r' template args := by
  cases args with
  | positional args => rw [filled, filled, texts_congr args each]
  | named args =>
    have same : namedTexts r args = namedTexts r' args := by
      rw [namedTexts_eq_map, namedTexts_eq_map]
      refine List.map_congr_left fun arg member => ?_
      exact congrArg (Prod.mk arg.1) (each arg.2 (List.mem_map.mpr ⟨arg, member, rfl⟩))
    rw [filled, filled, same]

theorem conditionText_congr {condition : JoinCondition Expr}
    (each : ∀ e ∈ condition.items, r.write e = r'.write e) :
    conditionText r condition = conditionText r' condition := by
  cases condition with
  | unconstrained => rw [conditionText, conditionText]
  | onPredicate predicate =>
    rw [conditionText, conditionText, each predicate (by simp [JoinCondition.items])]
  | usingColumns columns => rw [conditionText, conditionText, texts_congr columns each]

theorem write_congr (dialect : r.dialect = r'.dialect) {e : Expr}
    (each : ∀ kind pairs, (Expr.conditions kind pairs).StandsIn e →
      r.conditions pairs = r'.conditions pairs) : r.write e = r'.write e := by
  induction e using Expr.childrenInduction with
  | step e ih =>
    have part : ∀ child ∈ e.children, r.write child = r'.write child := fun child member =>
      ih child member fun kind pairs stands => each kind pairs (.inside member stands)
    cases e
    case conditions kind pairs =>
      rw [write, write]
      exact each kind pairs .here
    case list items => rw [write, write, texts_congr items part]
    case identifier name => rw [write, write, dialect]
    case qualified table column =>
      rw [write, write, part table (by simp [Expr.children]), part column (by simp [Expr.children])]
    case columnAll table => rw [write, write, part table (by simp [Expr.children])]
    case aliased expr label columns =>
      rw [write, write, part expr (by simp [Expr.children]), dialect]
    case complex family op args => rw [write, write, texts_congr args part]
    case call name args distinct star => rw [write, write, texts_congr args part]
    case cast expr typeName => rw [write, write, part expr (by simp [Expr.children])]
    case subscript expr indices =>
      rw [write, write, part expr (by simp [Expr.children]),
        texts_congr indices fun index member => part index (by simp [Expr.children, member])]
    case caseWhen branches otherwise subject =>
      rw [write, write, part otherwise (by simp [Expr.children]),
        subjectText_congr fun e given => part e (by simp_all [Expr.children]),
        branchTexts_congr fun side member => part side (by simp [Expr.children, member])]
    case ordered expr descending nulls => rw [write, write, part expr (by simp [Expr.children])]
    case placeholder template args parenthesize => rw [write, write, filled_congr template part]
    case join kind table label condition =>
      have joined := conditionText_congr fun e (member : e ∈ condition.items) =>
        part e (by simp [Expr.children, member])
      simp only [write, part table (by simp [Expr.children]), joined, dialect]
    all_goals simp only [write]

end Congruence

/-- The predicate of conditions is written alike wherever what stands inside them is. -/
theorem predicate_congr {bound : Nat} {pairs : List (Expr × Expr)}
    {text text' : Expr → Except Error String}
    (sides : ∀ side ∈ Expr.sides pairs, side.Layered bound)
    (same : ∀ e : Expr, e.Layered bound → text e = text' e) :
    (do text (← Predicate.join .and (← predicates pairs)).toExpr) = (do
      text' (← Predicate.join .and (← predicates pairs)).toExpr) := by
  have inv := Expr.Layered.synthesisInvariant bound
  cases each : predicates pairs with
  | error failure => rfl
  | ok ps =>
    cases joined : Predicate.join .and ps with
    | error failure => simp [joined, bind, Except.bind]
    | ok p =>
      have inside := inv.join (inv.of_predicates sides each) joined
      simpa [joined, bind, Except.bind] using same p.toExpr inside

theorem nested_write_eq (dialect : Dialect) (bound : Nat) :
    ∀ (e : Expr) (level level' : Nat), e.Layered bound → bound ≤ level → bound ≤ level' →
      (nested dialect level).write e = (nested dialect level').write e := by
  -- Conditions use up one level and one of the bound.
  induction bound with
  | zero =>
    intro e level level' layered _ _
    apply write_congr (by rw [dialect_nested, dialect_nested])
    intro kind pairs stands
    cases layered.of_standsIn stands with
    | plain other _ => exact absurd rfl (other kind pairs)
  | succ bound ih =>
    intro e level level' layered above above'
    apply write_congr (by rw [dialect_nested, dialect_nested])
    intro kind pairs stands
    obtain ⟨level, rfl⟩ : ∃ below, level = below + 1 := ⟨level - 1, by omega⟩
    obtain ⟨level', rfl⟩ : ∃ below, level' = below + 1 := ⟨level' - 1, by omega⟩
    have sides := (layered.of_standsIn stands).sides
    exact predicate_congr sides fun e inside => ih e level level' inside (by omega) (by omega)

theorem nested_write {dialect : Dialect} {e : Expr} {level : Nat} (enough : e.depth ≤ level) :
    (nested dialect level).write e = e.sql dialect :=
  nested_write_eq dialect e.depth e level e.depth (.atDepth e) enough (Nat.le_refl _)

/-- Conditions are written as the predicate of their pairs joined by AND, whatever stands in it. -/
def full (dialect : Dialect) : Rendering :=
  ⟨dialect, fun pairs => do
    (← Predicate.join .and (← predicates pairs)).toExpr.sql dialect⟩

end Rendering

open Rendering

theorem Expr.sql_eq_full (dialect : Dialect) (e : Expr) : e.sql dialect = (full dialect).write e := by
  apply write_congr (dialect_nested dialect e.depth)
  intro kind pairs stands
  have layered := (Layered.atDepth e).of_standsIn stands
  obtain ⟨bound, level⟩ := layered.exists_succ
  rw [level] at layered ⊢
  refine predicate_congr layered.sides fun inner inside => ?_
  rcases Nat.le_total bound inner.depth with deeper | flatter
  · exact nested_write_eq dialect bound _ _ _ inside (Nat.le_refl _) deeper
  · exact nested_write flatter

end SqlExpr
