import SqlExpr.Proofs.Lexemes
import SqlExpr.Render.Sql

/-!
The fixed texts of SQL and the texts of numbers and blobs are free of quotes or are quoted tokens of
their own.
-/

namespace SqlExpr

open Lexeme

theorem isQuote_of_isDigit {c : Char} (digit : c.isDigit = true) : isQuote c = false := by
  by_contra quote
  simp only [isQuote, Bool.not_eq_false, Bool.or_eq_true, beq_iff_eq] at quote
  rcases quote with rfl | rfl <;> exact absurd digit (by decide)

theorem unquoted_toDigits (n : Nat) : Unquoted (Nat.toDigits 10 n) :=
  fun _ member => isQuote_of_isDigit (Nat.isDigit_of_mem_toDigits (by decide) (by decide) member)

theorem quoteFree_natural (n : Nat) : QuoteFree n.repr := by
  rw [QuoteFree, Nat.toList_repr]
  exact unquoted_toDigits n

theorem quoteFree_integer (n : Int) : QuoteFree (toString n) := by
  cases n with
  | ofNat n => exact quoteFree_natural n
  | negSucc n => exact .append (by decide) (quoteFree_natural (n + 1))

namespace Decimal

theorem unquoted_positional {digits : List Char} (free : Unquoted digits) (places : Int) :
    Unquoted (positional digits places) := by
  have zeros (count : Nat) : Unquoted (List.replicate count '0') := by
    intro c member
    rw [List.eq_of_mem_replicate member]
    rfl
  have whole (count : Nat) : Unquoted (digits.take count) :=
    fun c member => free c (List.mem_of_mem_take member)
  have fraction (count : Nat) : Unquoted (digits.drop count) :=
    fun c member => free c (List.mem_of_mem_drop member)
  unfold positional
  split
  · simp [zeros, free, isQuote]
  · simp only [unquoted_append, unquoted_cons]
    refine ⟨⟨whole _, zeros _⟩, rfl, ?_⟩
    split
    · decide
    · exact fraction _

theorem unquoted_withExponent {digits : List Char} (free : Unquoted digits) (signed : Bool)
    (exponent : Int) : Unquoted (withExponent signed digits exponent) := by
  have power : Unquoted (toString exponent).toList := quoteFree_integer exponent
  have sign : Unquoted (if signed && 0 ≤ exponent then ['+'] else []) := by
    split <;> decide
  unfold withExponent
  simp only [unquoted_append, unquoted_cons]
  refine ⟨?_, rfl, sign, power⟩
  split
  · decide
  · exact free
  · rw [unquoted_cons] at free
    simpa [isQuote] using free

theorem quoteFree_write (layout : Layout) (b : Binary) : QuoteFree (layout.write b) := by
  have sign : Unquoted (if b.negative then ['-'] else []) := by
    split <;> decide
  unfold Layout.write QuoteFree
  generalize (if b.negative then ['-'] else []) = signed at sign
  dsimp only
  split
  · rw [String.toList_ofList, unquoted_append]
    exact ⟨sign, by decide⟩
  · rw [String.toList_ofList, unquoted_append]
    refine ⟨sign, ?_⟩
    split
    · exact unquoted_positional (unquoted_toDigits _) _
    · exact unquoted_withExponent (unquoted_toDigits _) _ _

end Decimal

theorem quoteFree_symbol (op : Operator) : QuoteFree op.symbol := by
  cases op <;> decide

theorem quoteFree_namedConstant (c : NamedConstant) : QuoteFree c.sql := by
  cases c <;> decide

theorem quoteFree_joinKind (kind : JoinKind) : QuoteFree kind.sql := by
  cases kind <;> decide

theorem quoteFree_nullsPlacement (nulls : NullsPlacement) : QuoteFree nulls.sql := by
  cases nulls <;> decide

/-! Literal values. -/

theorem unquoted_hexByte (byte : UInt8) : Unquoted (Text.hexByte byte) := by
  have digit : ∀ n < 16, isQuote (Text.hexDigit n).toUpper = false := by decide
  have high : byte.toNat / 16 < 16 := by
    have bound := byte.toNat_lt
    omega
  simp only [Text.hexByte, unquoted_cons, unquoted_nil, and_true]
  exact ⟨digit _ high, digit _ (Nat.mod_lt _ (by decide))⟩

theorem doubled_of_unquoted {text : List Char} (free : Unquoted text) :
    Text.doubled '\'' text = text := by
  induction text with
  | nil => rfl
  | cons c rest ih =>
    obtain ⟨first, later⟩ := unquoted_cons.mp free
    have other : c ≠ '\'' := by
      rintro rfl
      cases first
    rw [Text.doubled, if_neg other, ih later]

/-- A blob is a quoted text behind its letter, as digits are no quotes. -/
theorem blobLiteral_eq (bytes : List UInt8) : Value.blobLiteral bytes =
    "X" ++ Text.quoted '\'' (String.ofList (bytes.flatMap Text.hexByte)) := by
  have digits : Unquoted (bytes.flatMap Text.hexByte) := by
    intro c member
    obtain ⟨byte, _, inside⟩ := List.mem_flatMap.mp member
    exact unquoted_hexByte byte c inside
  apply String.toList_injective
  simp [Value.blobLiteral, Text.quoted, doubled_of_unquoted digits]

theorem sameLexemes_blob (bytes : List UInt8) :
    SameLexemes (Value.blobLiteral bytes) (Value.blobLiteral bytes) := by
  rw [blobLiteral_eq]
  exact .after (by decide) (.quoted rfl _ _)

theorem sameLexemes_castFloat (x : Float) :
    SameLexemes (Value.castFloat x) (Value.castFloat x) := by
  have token (name : String) (free : QuoteFree name) :
      "CAST('" ++ name ++ "' AS DOUBLE PRECISION)" =
        "CAST(" ++ Text.quoted '\'' name ++ " AS DOUBLE PRECISION)" := by
    apply String.toList_injective
    simp [Text.quoted, doubled_of_unquoted free]
  have free : QuoteFree (if x.isNaN then "NaN" else if x < 0 then "-Infinity" else "Infinity") := by
    split
    · decide
    · split <;> decide
  unfold Value.castFloat
  rw [token _ free]
  exact .before (.after (by decide) (.quoted rfl _ _)) (by decide)

theorem sameLexemes_value (v : Value) : SameLexemes v.sql v.sql := by
  cases v with
  | null => exact .plain (by decide)
  | boolean truth => cases truth <;> exact .plain (by decide)
  | integer n => exact .plain (quoteFree_integer n.toInt)
  | float x =>
    rw [Value.sql]
    cases found : Decimal.Layout.plain.write? x with
    | none => exact sameLexemes_castFloat x
    | some text =>
      obtain ⟨b, _, rfl⟩ := Option.map_eq_some_iff.mp found
      exact .plain (Decimal.quoteFree_write _ b)
  | string text => exact .quoted rfl text text
  | blob bytes => exact sameLexemes_blob bytes

end SqlExpr
