import Mathlib
import SqlExpr.Proofs.Spelling

/-!
The text of a term determines the term, up to what the text leaves out. Where two texts begin the
same longer text, the first characters tell the kind of node, so that the terms are taken apart side
by side.
-/

namespace SqlExpr

open SqlExpr.Expr

/-! What stands behind a term ends it. -/

def isEnd (c : Char) : Bool :=
  c == ' ' || c == ')' || c == ','

def Stops (rest : List Char) : Prop :=
  ∀ c ∈ rest.head?, isEnd c = true

theorem stops_nil : Stops [] := by
  simp [Stops]

theorem stops_cons {c : Char} {rest : List Char} (ends : isEnd c = true) : Stops (c :: rest) := by
  simpa [Stops] using ends

theorem word_append_inj {word word' rest rest' : List Char} (inner : ∀ c ∈ word, isEnd c = false)
    (inner' : ∀ c ∈ word', isEnd c = false) (stops : Stops rest) (stops' : Stops rest')
    (same : word ++ rest = word' ++ rest') : word = word' ∧ rest = rest' := by
  have whole {word rest : List Char} (inner : ∀ c ∈ word, isEnd c = false) (stops : Stops rest) :
      (word ++ rest).takeWhile (!isEnd ·) = word := by
    rw [List.takeWhile_append_of_pos (by simpa using inner)]
    cases rest with
    | nil => simp
    | cons c rest => simp [stops c rfl]
  have words : word = word' := by
    rw [← whole inner stops, same, whole inner' stops']
  subst words
  exact ⟨rfl, List.append_cancel_left same⟩

theorem quoted_append_inj {quote : Char} (other : isEnd quote = false) {content content' : String}
    {rest rest' : List Char} (stops : Stops rest) (stops' : Stops rest')
    (same : (Text.quoted quote content).toList ++ rest =
      (Text.quoted quote content').toList ++ rest') : content = content' ∧ rest = rest' := by
  have ends {rest : List Char} (stops : Stops rest) : rest.head? ≠ some quote := by
    intro head
    rw [stops quote head] at other
    cases other
  have read := congrArg (fun text => Text.readQuoted quote text.tail) same
  simp only [Text.quoted, String.toList_ofList, List.cons_append, List.append_assoc, List.tail_cons,
    List.nil_append] at read
  rw [Text.readQuoted_doubled quote _ _ (ends stops),
    Text.readQuoted_doubled quote _ _ (ends stops')] at read
  simpa [String.toList_inj] using read

/-! Values without quotes. -/

def isNumeral (c : Char) : Bool :=
  c == '-' || c.isDigit

theorem isEnd_of_isNumeral {c : Char} (numeral : isNumeral c = true) : isEnd c = false := by
  by_contra ends
  simp only [isEnd, Bool.not_eq_false, Bool.or_eq_true, beq_iff_eq] at ends
  rcases ends with (rfl | rfl) | rfl <;> exact absurd numeral (by decide)

theorem isNumeral_of_mem_repr {n : Int} : ∀ c ∈ n.repr.toList, isNumeral c = true := by
  have digits (n : Nat) : ∀ c ∈ n.repr.toList, isNumeral c = true := by
    intro c member
    rw [Nat.toList_repr] at member
    have digit : c.isDigit = true := Nat.isDigit_of_mem_toDigits (by decide) (by decide) member
    rw [isNumeral, digit, Bool.or_true]
  cases n with
  | ofNat n => exact digits n
  | negSucc n =>
    intro c member
    have split : c = '-' ∨ c ∈ (n + 1).repr.toList := by
      simpa [Int.repr, String.toList_append] using member
    rcases split with rfl | member
    · rfl
    · exact digits (n + 1) c member

theorem repr_ne_nil (n : Int) : n.repr.toList ≠ [] := by
  cases n with
  | ofNat n => simp [Int.repr]
  | negSucc n => simp [Int.repr, String.toList_append]

namespace Value

def isWord : Value → Prop
  | null | boolean _ | integer _ => True
  | _ => False

theorem sql_integer (n : Int64) : (integer n).sql = n.toInt.repr :=
  rfl

theorem inner_of_isWord {v : Value} (word : v.isWord) : ∀ c ∈ v.sql.toList, isEnd c = false := by
  cases v with
  | null => simp [sql, isEnd]
  | boolean truth => cases truth <;> simp [sql, isEnd]
  | integer n =>
    intro c member
    exact isEnd_of_isNumeral (isNumeral_of_mem_repr c member)
  | float | string | blob => exact word.elim

theorem ne_integer {text : String} {n : Int64}
    (letter : text.toList.all isNumeral = false) : text ≠ (integer n).sql := by
  rintro rfl
  have numerals : (integer n).sql.toList.all isNumeral = true :=
    List.all_eq_true.mpr isNumeral_of_mem_repr
  rw [numerals] at letter
  cases letter

theorem sql_inj_of_isWord {v v' : Value} (word : v.isWord) (word' : v'.isWord)
    (same : v.sql = v'.sql) : v = v' := by
  cases v with
  | null =>
    cases v' with
    | null => rfl
    | boolean truth => cases truth <;> exact absurd same (by decide)
    | integer n => exact absurd same (ne_integer (by decide))
    | float | string | blob => exact word'.elim
  | boolean truth =>
    cases v' with
    | null => cases truth <;> exact absurd same (by decide)
    | boolean truth' => cases truth <;> cases truth' <;> first | rfl | exact absurd same (by decide)
    | integer n => cases truth <;> exact absurd same (ne_integer (by decide))
    | float | string | blob => exact word'.elim
  | integer n =>
    cases v' with
    | null => exact absurd same.symm (ne_integer (by decide))
    | boolean truth => cases truth <;> exact absurd same.symm (ne_integer (by decide))
    | integer n' =>
      rw [sql_integer, sql_integer, Int.repr_inj, Int64.toInt_inj] at same
      rw [same]
    | float | string | blob => exact word'.elim
  | float | string | blob => exact word.elim

end Value

/-! The kinds of nodes by the first characters of their texts. -/

inductive Lead where
  | name | string | word | complement | negation | power | enclosed

def Lead.ofChars : List Char → Lead
  | '"' :: _ => .name
  | '\'' :: _ => .string
  | '~' :: _ => .complement
  | '(' :: _ => .enclosed
  | 'p' :: _ => .power
  | 'N' :: 'O' :: _ => .negation
  | _ => .word

theorem Lead.ofChars_numeral {c : Char} (numeral : isNumeral c = true) (rest : List Char) :
    ofChars (c :: rest) = .word := by
  unfold ofChars
  split
  case h_7 => rfl
  all_goals
    rename_i whole
    cases whole
    cases numeral

/-- Operators that are written between their operands. -/
def Operator.isInfix (op : Operator) : Prop :=
  op ≠ .noop ∧ op ≠ .bitNot ∧ op ≠ .not ∧ op ≠ .power

instance (op : Operator) : Decidable op.isInfix :=
  inferInstanceAs (Decidable (_ ∧ _))

inductive Form : Lead → Expr → Prop
  | name (name : String) : Form .name (.identifier name)
  | string (text : String) : Form .string (.value (.string text))
  | word {v : Value} : v.isWord → Form .word (.value v)
  | complement (e : Expr) : Form .complement (.complex .generic .bitNot [e])
  | negation (e : Expr) : Form .negation (.complex .generic .not [e])
  | power (base exponent : Expr) : Form .power (.complex .generic .power [base, exponent])
  | enclosed {op : Operator} (first second : Expr) (others : List Expr) :
    op.isInfix → Form .enclosed (.complex .generic op (first :: second :: others))

theorem two_le_length {family : Family} {op : Operator} {args : List Expr} (between : op.isInfix)
    (term : (complex family op args).isTerm) : 2 ≤ args.length := by
  obtain ⟨_, accepted, several⟩ := term
  cases arity : op.arity with
  | one => cases op <;> simp_all [Operator.isInfix, Operator.arity]
  | two =>
    rw [arity, Arity.accepts, beq_iff_eq] at accepted
    omega
  | many => exact several arity

theorem exists_form {e : Expr} (normal : e.isTerm ∧ e.isAsRead) : ∃ lead, Form lead e := by
  obtain ⟨term, read⟩ := normal
  cases e
  case identifier name => exact ⟨_, .name name⟩
  case value v =>
    cases v with
    | null | boolean | integer => exact ⟨_, .word trivial⟩
    | string text => exact ⟨_, .string text⟩
    | float | blob => exact term.elim
  case complex family op args =>
    obtain rfl := family_of_isAsRead read
    by_cases between : op.isInfix
    · have length := two_le_length between term
      rcases args with _ | ⟨first, _ | ⟨second, others⟩⟩
      · cases length
      · simp at length
      · exact ⟨_, .enclosed first second others between⟩
    · obtain ⟨noNoop, accepted, _⟩ := term
      have special : op = .bitNot ∨ op = .not ∨ op = .power := by
        cases op <;> simp_all [Operator.isInfix]
      rcases special with rfl | rfl | rfl
      · obtain ⟨e, rfl⟩ := List.length_eq_one_iff.mp (beq_iff_eq.mp accepted)
        exact ⟨_, .complement e⟩
      · obtain ⟨e, rfl⟩ := List.length_eq_one_iff.mp (beq_iff_eq.mp accepted)
        exact ⟨_, .negation e⟩
      · obtain ⟨base, exponent, rfl⟩ := List.length_eq_two.mp (beq_iff_eq.mp accepted)
        exact ⟨_, .power base exponent⟩
  all_goals exact term.elim

/-- The text from an operand of an infix operator to the end of the node. -/
def behind (op : Operator) : List Expr → List Char
  | [] => [')']
  | e :: rest => ' ' :: (op.symbol.toList ++ ' ' :: (e.spelling.toList ++ behind op rest))

theorem spelling_enclosed {op : Operator} (between : op.isInfix) (first : Expr)
    (others : List Expr) :
    (complex .generic op (first :: others)).spelling.toList =
      '(' :: (first.spelling.toList ++ behind op others) := by
  have inner : ((" " ++ op.symbol ++ " ").intercalate (spellings (first :: others))).toList ++
      [')'] = first.spelling.toList ++ behind op others := by
    induction others generalizing first with
    | nil => simp [spellings, behind]
    | cons second others ih =>
      rw [spellings, spellings, String.intercalate_cons_cons, ← spellings, String.toList_append,
        List.append_assoc, ih second, behind]
      simp
  rw [spelling, Operator.write_between between, String.toList_append, String.toList_append,
    List.append_assoc]
  exact congrArg ('(' :: ·) inner

theorem spelling_complement (e : Expr) :
    (complex .generic .bitNot [e]).spelling.toList = '~' :: e.spelling.toList := by
  rw [spelling, spellings, spellings, Operator.write, String.toList_append]
  rfl

theorem spelling_negation (e : Expr) :
    (complex .generic .not [e]).spelling.toList = "NOT ".toList ++ e.spelling.toList := by
  rw [spelling, spellings, spellings, Operator.write, String.toList_append]

theorem spelling_power (base exponent : Expr) :
    (complex .generic .power [base, exponent]).spelling.toList =
      "power(".toList ++
        (base.spelling.toList ++ ',' :: ' ' :: (exponent.spelling.toList ++ [')'])) := by
  rw [spelling, spellings, spellings, spellings, Operator.write]
  simp [String.toList_append]

theorem stops_behind (op : Operator) (others : List Expr) (rest : List Char) :
    Stops (behind op others ++ rest) := by
  cases others <;> exact stops_cons rfl

theorem Form.ofChars {lead : Lead} {e : Expr} (form : Form lead e) (rest : List Char) :
    Lead.ofChars (e.spelling.toList ++ rest) = lead := by
  cases form with
  | name name => simp [spelling, Text.quoted, Lead.ofChars]
  | string text => simp [spelling, Value.sql, Text.quoted, Lead.ofChars]
  | @word v word =>
    cases v with
    | null => rfl
    | boolean truth => cases truth <;> rfl
    | integer n =>
      rw [spelling, Value.sql_integer]
      obtain ⟨c, tail, text⟩ := List.exists_cons_of_ne_nil (repr_ne_nil n.toInt)
      have member : c ∈ n.toInt.repr.toList := by simp [text]
      rw [text]
      exact Lead.ofChars_numeral (isNumeral_of_mem_repr c member) _
    | float | string | blob => exact word.elim
  | complement e =>
    rw [spelling_complement]
    rfl
  | negation e =>
    rw [spelling_negation]
    rfl
  | power base exponent =>
    rw [spelling_power]
    rfl
  | enclosed first second others between =>
    rw [spelling_enclosed between]
    rfl

/-- With a blank behind it, IS is the only symbol that another one continues. -/
theorem symbol_of_prefix : ∀ op ∈ Operator.all, ∀ op' ∈ Operator.all, op.isInfix → op'.isInfix →
    op.symbol.toList ++ [' '] <+: op'.symbol.toList ++ [' '] →
    op = op' ∨ (op = .is ∧ op' = .isNot) := by
  decide +kernel

theorem symbol_longer {op op' : Operator} (between : op.isInfix) (between' : op'.isInfix)
    {more : List Char}
    (longer : op'.symbol.toList ++ [' '] = op.symbol.toList ++ [' '] ++ more) :
    (op = op' ∧ more = []) ∨ (op = .is ∧ op' = .isNot ∧ more = "NOT ".toList) := by
  rcases symbol_of_prefix op op.mem_all op' op'.mem_all between between' ⟨more, longer.symm⟩ with
    rfl | ⟨rfl, rfl⟩
  · exact .inl ⟨rfl, by simpa using longer⟩
  · refine .inr ⟨rfl, rfl, ?_⟩
    simpa [Operator.symbol] using longer.symm

theorem symbol_append {op op' : Operator} (between : op.isInfix) (between' : op'.isInfix)
    {rest rest' : List Char}
    (same : op.symbol.toList ++ ' ' :: rest = op'.symbol.toList ++ ' ' :: rest') :
    (op = op' ∧ rest = rest') ∨ (op = .is ∧ op' = .isNot ∧ rest = "NOT ".toList ++ rest') ∨
      (op = .isNot ∧ op' = .is ∧ rest' = "NOT ".toList ++ rest) := by
  rw [List.append_cons _ _ rest, List.append_cons _ _ rest', List.append_eq_append_iff] at same
  rcases same with ⟨more, longer, rfl⟩ | ⟨more, longer, rfl⟩
  · rcases symbol_longer between between' longer with ⟨rfl, rfl⟩ | ⟨rfl, rfl, rfl⟩
    · exact .inl ⟨rfl, rfl⟩
    · exact .inr (.inl ⟨rfl, rfl, rfl⟩)
  · rcases symbol_longer between' between longer with ⟨rfl, rfl⟩ | ⟨rfl, rfl, rfl⟩
    · exact .inl ⟨rfl, rfl⟩
    · exact .inr (.inr ⟨rfl, rfl, rfl⟩)

/-- A term in the form in which its text is read. -/
def Expr.Normal (e : Expr) : Prop :=
  e.Throughout fun x => x.isTerm ∧ x.isAsRead

/-- The text of the expression is read in one way, whatever follows. -/
def Expr.Readable (e : Expr) : Prop :=
  ∀ (e' : Expr) (rest rest' : List Char), e'.Normal → Stops rest → Stops rest' →
    e.spelling.toList ++ rest = e'.spelling.toList ++ rest' → e = e' ∧ rest = rest'

theorem behind_inj {op : Operator} {others others' : List Expr}
    (each : ∀ e ∈ others, e.Readable) (normal : ∀ e ∈ others', e.Normal) {rest rest' : List Char}
    (same : behind op others ++ rest = behind op others' ++ rest') :
    others = others' ∧ rest = rest' := by
  induction others generalizing others' with
  | nil =>
    cases others' with
    | nil => exact ⟨rfl, by simpa [behind] using same⟩
    | cons => simp [behind] at same
  | cons e others ih =>
    cases others' with
    | nil => simp [behind] at same
    | cons e' others' =>
      rw [List.forall_mem_cons] at each normal
      simp only [behind, List.cons_append, List.append_assoc, List.cons.injEq, true_and,
        List.append_cancel_left_eq] at same
      obtain ⟨rfl, tails⟩ := each.1 e' _ _ normal.1 (stops_behind _ _ _) (stops_behind _ _ _) same
      obtain ⟨rfl, rests⟩ := ih each.2 normal.2 tails
      exact ⟨rfl, rests⟩

theorem not_negation_behind_is {first second : Expr} {others : List Expr}
    (normal : (complex .generic .is (first :: second :: others)).Normal) (rest after : List Char) :
    second.spelling.toList ++ rest ≠ "NOT ".toList ++ after := by
  intro starts
  obtain ⟨⟨_, accepted, _⟩, read⟩ := normal.here
  have member : second ∈ (complex .generic .is (first :: second :: others)).children := by
    simp [children]
  obtain ⟨lead, form⟩ := exists_form (normal.child member).here
  have negated : lead = .negation := by
    rw [← form.ofChars rest, starts]
    rfl
  subst negated
  cases form
  obtain rfl : others = [] := by simpa [Operator.arity, Arity.accepts] using accepted
  exact not_testsNegation_of_isAsRead read trivial

section Nodes

variable {rest rest' : List Char}

theorem power_inj {base exponent base' exponent' : Expr} (first : base.Readable)
    (second : exponent.Readable) (normal : base'.Normal) (normal' : exponent'.Normal)
    (same : (complex .generic .power [base, exponent]).spelling.toList ++ rest =
      (complex .generic .power [base', exponent']).spelling.toList ++ rest') :
    complex .generic .power [base, exponent] = complex .generic .power [base', exponent'] ∧
      rest = rest' := by
  simp only [spelling_power, List.append_assoc, List.cons_append, List.nil_append,
    List.append_cancel_left_eq] at same
  obtain ⟨rfl, tails⟩ := first base' _ _ normal (stops_cons rfl) (stops_cons rfl) same
  simp only [List.cons.injEq, true_and] at tails
  obtain ⟨rfl, ends⟩ := second exponent' _ _ normal' (stops_cons rfl) (stops_cons rfl) tails
  exact ⟨rfl, (List.cons.inj ends).2⟩

theorem enclosed_inj {op op' : Operator} {first second first' second' : Expr}
    {others others' : List Expr} (between : op.isInfix) (between' : op'.isInfix)
    (normal : (complex .generic op (first :: second :: others)).Normal)
    (normal' : (complex .generic op' (first' :: second' :: others')).Normal)
    (each : ∀ e ∈ first :: second :: others, e.Readable)
    (same : (complex .generic op (first :: second :: others)).spelling.toList ++ rest =
      (complex .generic op' (first' :: second' :: others')).spelling.toList ++ rest') :
    complex .generic op (first :: second :: others) =
      complex .generic op' (first' :: second' :: others') ∧ rest = rest' := by
  have each' : ∀ e ∈ first' :: second' :: others', e.Normal :=
    fun e member => normal'.child member
  rw [List.forall_mem_cons] at each each'
  rw [spelling_enclosed between, spelling_enclosed between'] at same
  simp only [List.cons_append, List.append_assoc, List.cons.injEq, true_and] at same
  obtain ⟨rfl, tails⟩ := each.1 first' _ _ each'.1 (stops_behind _ _ _) (stops_behind _ _ _) same
  -- The operators differ only where NOT is read as part of IS NOT, which normal terms rule out.
  have symbols := tails
  simp only [behind, List.cons_append, List.append_assoc, List.cons.injEq, true_and] at symbols
  rcases symbol_append between between' symbols with
    ⟨rfl, _⟩ | ⟨rfl, rfl, starts⟩ | ⟨rfl, rfl, starts⟩
  · obtain ⟨operands, rests⟩ := behind_inj each.2 each'.2 tails
    rw [operands]
    exact ⟨rfl, rests⟩
  · exact absurd starts (not_negation_behind_is normal _ _)
  · exact absurd starts (not_negation_behind_is normal' _ _)

end Nodes

theorem Expr.Normal.readable {e : Expr} (normal : e.Normal) : e.Readable := by
  induction e using childrenInduction with
  | step e ih =>
    intro e' rest rest' normal' stops stops' same
    have each : ∀ child ∈ e.children, child.Readable :=
      fun child member => ih child member (normal.child member)
    have each' : ∀ child ∈ e'.children, child.Normal := fun child member => normal'.child member
    obtain ⟨lead, form⟩ := exists_form normal.here
    obtain ⟨lead', form'⟩ := exists_form normal'.here
    have leads : lead = lead' := by rw [← form.ofChars rest, same, form'.ofChars rest']
    subst leads
    cases form with
    | name name =>
      cases form' with
      | name name' =>
        obtain ⟨rfl, rests⟩ := quoted_append_inj (by decide) stops stops' same
        exact ⟨rfl, rests⟩
    | string text =>
      cases form' with
      | string text' =>
        obtain ⟨rfl, rests⟩ := quoted_append_inj (by decide) stops stops' same
        exact ⟨rfl, rests⟩
    | word word =>
      cases form' with
      | word word' =>
        obtain ⟨words, rests⟩ := word_append_inj (Value.inner_of_isWord word)
          (Value.inner_of_isWord word') stops stops' same
        rw [Value.sql_inj_of_isWord word word' (String.toList_inj.mp words)]
        exact ⟨rfl, rests⟩
    | complement e =>
      cases form' with
      | complement e' =>
        rw [spelling_complement, spelling_complement] at same
        obtain ⟨rfl, rests⟩ := each e (by simp [children]) e' rest rest'
          (each' e' (by simp [children])) stops stops' (List.cons.inj same).2
        exact ⟨rfl, rests⟩
    | negation e =>
      cases form' with
      | negation e' =>
        rw [spelling_negation, spelling_negation, List.append_assoc, List.append_assoc] at same
        obtain ⟨rfl, rests⟩ := each e (by simp [children]) e' rest rest'
          (each' e' (by simp [children])) stops stops' (List.append_cancel_left same)
        exact ⟨rfl, rests⟩
    | power base exponent =>
      cases form' with
      | power base' exponent' =>
        exact power_inj (each base (by simp [children])) (each exponent (by simp [children]))
          (each' base' (by simp [children])) (each' exponent' (by simp [children])) same
    | enclosed first second others between =>
      cases form' with
      | enclosed first' second' others' between' =>
        exact enclosed_inj between between' normal normal' each same

theorem Expr.spelling_eq_iff {e e' : Expr} (term : e.Throughout isTerm)
    (term' : e'.Throughout isTerm) : e.spelling = e'.spelling ↔ e.asRead = e'.asRead := by
  constructor
  · intro same
    have normal : e.asRead.Normal := throughout_asRead term
    have normal' : e'.asRead.Normal := throughout_asRead term'
    refine (normal.readable e'.asRead [] [] normal' stops_nil stops_nil ?_).1
    rw [spelling_asRead, spelling_asRead, same]
  · intro same
    rw [← spelling_asRead e, same, spelling_asRead]

/-- The SQL of two terms is the same just when they read alike, thus when they are the same up to
families, unless NOT stands to the right of IS. -/
theorem Expr.sql_eq_iff_asRead {e e' : Expr} (term : e.Throughout isTerm)
    (term' : e'.Throughout isTerm) :
    ∃ text text', e.sql ⟨true⟩ = .ok text ∧ e'.sql ⟨true⟩ = .ok text' ∧
      (text = text' ↔ e.asRead = e'.asRead) ∧
      ((e.Throughout fun x => ¬x.testsNegation) → (e'.Throughout fun x => ¬x.testsNegation) →
        (text = text' ↔ e.untagged = e'.untagged)) := by
  refine ⟨_, _, sql_of_term term, sql_of_term term', spelling_eq_iff term term', ?_⟩
  intro free free'
  rw [spelling_eq_iff term term', asRead_eq_untagged free, asRead_eq_untagged free']

def comparison (op : Operator) : Expr :=
  .complex .boolean op [.identifier "a", .identifier "b"]

def comparisonWithNegation : Expr :=
  .complex .boolean .is [.identifier "a", .complex .boolean .not [.identifier "b"]]

theorem throughout_isTerm_comparison {op : Operator} (two : op.arity = .two) :
    (comparison op).Throughout isTerm := by
  have accepted : op.arity.accepts 2 = true := by rw [two]; rfl
  refine .intro ⟨?_, accepted, by simp⟩ ?_
  · rintro rfl
    cases two
  · have column (name : String) : (Expr.identifier name).Throughout isTerm :=
      .leaf trivial rfl
    simp [comparison, children, column]

theorem throughout_isTerm_comparisonWithNegation : comparisonWithNegation.Throughout isTerm := by
  have column (name : String) : (Expr.identifier name).Throughout isTerm :=
    .leaf trivial rfl
  have negation : (Expr.complex .boolean .not [.identifier "b"]).Throughout isTerm :=
    .intro ⟨by decide, rfl, fun many => by cases many⟩ (by simp [children, column])
  refine .intro ⟨by decide, rfl, by simp⟩ ?_
  simp [comparisonWithNegation, children, column, negation]

theorem throughout_comparison_free (op : Operator) :
    (comparison op).Throughout fun x => ¬x.testsNegation := by
  have column (name : String) : (Expr.identifier name).Throughout fun x => ¬x.testsNegation :=
    .leaf id rfl
  refine .intro ?_ (by simp [comparison, children, column])
  cases op <;> exact id

theorem Expr.sql_eq_iff_asRead_comparison :
    (∃ text, comparisonWithNegation.sql ⟨true⟩ = .ok text ∧
        (comparison .isNot).sql ⟨true⟩ = .ok text) ∧
      ¬ ∃ text, (comparison .is).sql ⟨true⟩ = .ok text ∧
        (comparison .isNot).sql ⟨true⟩ = .ok text := by
  have is : (comparison .is).Throughout isTerm := throughout_isTerm_comparison rfl
  have isNot : (comparison .isNot).Throughout isTerm := throughout_isTerm_comparison rfl
  constructor
  · obtain ⟨text, text', first, second, same, _⟩ :=
      sql_eq_iff_asRead throughout_isTerm_comparisonWithNegation isNot
    obtain rfl := same.mpr rfl
    exact ⟨text, first, second⟩
  · rintro ⟨text, first, second⟩
    obtain ⟨_, _, first', second', _, same⟩ :=
      sql_eq_iff_asRead is isNot
    rw [first] at first'
    rw [second] at second'
    cases first'
    cases second'
    have alike := (same (throughout_comparison_free _) (throughout_comparison_free _)).mp rfl
    cases alike

theorem Expr.not_untagged_eq_of_sql_eq :
    ¬ ∀ e e' : Expr, e.Throughout isTerm → e'.Throughout isTerm → ∀ text, e.sql ⟨true⟩ = .ok text →
      e'.sql ⟨true⟩ = .ok text → e.untagged = e'.untagged := by
  intro always
  have isNot : (comparison .isNot).Throughout isTerm := throughout_isTerm_comparison rfl
  have text : comparisonWithNegation.spelling = (comparison .isNot).spelling :=
    (spelling_eq_iff throughout_isTerm_comparisonWithNegation isNot).mpr rfl
  have found := sql_of_term throughout_isTerm_comparisonWithNegation
  rw [text] at found
  have same := always _ _ throughout_isTerm_comparisonWithNegation isNot _ found (sql_of_term isNot)
  cases same

end SqlExpr
