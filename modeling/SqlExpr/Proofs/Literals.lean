import SqlExpr.Proofs.Unambiguity

/-!
Literals and identifiers read back. What is quoted reads back with the text that follows it, unless
that begins with a quote, and two values that are not floats have two texts.
-/

namespace SqlExpr

open Lexeme

namespace Text

/-- Reads a quoted text: what it says, and the text behind it. -/
def readText (quote : Char) : List Char → Option (String × List Char)
  | [] => none
  | c :: rest =>
    if c = quote then
      (readQuoted quote rest).map fun (content, after) => (String.ofList content, after)
    else none

/-- Reads bytes of two digits each. -/
def readBytes : List Char → Option (List UInt8)
  | [] => some []
  | [_] => none
  | high :: low :: rest => do
    let byte := 16 * (← hexValue? high) + (← hexValue? low)
    let bytes ← readBytes rest
    return UInt8.ofNat byte :: bytes

theorem readText_quoted (quote : Char) (content : String) (after : List Char)
    (ends : after.head? ≠ some quote) :
    readText quote ((quoted quote content).toList ++ after) = some (content, after) := by
  rw [quoted, String.toList_ofList, List.cons_append, List.append_assoc, readText, if_pos rfl,
    List.singleton_append, readQuoted_doubled quote _ _ ends]
  simp

theorem quoted_inj {quote : Char} {content content' : String}
    (same : quoted quote content = quoted quote content') : content = content' := by
  have read := readText_quoted quote content [] (by simp)
  rw [same, readText_quoted quote content' [] (by simp)] at read
  cases read
  rfl

theorem hexValue?_upper_hexDigit : ∀ n < 16, hexValue? (hexDigit n).toUpper = some n := by decide

theorem readBytes_hexByte (bytes : List UInt8) : readBytes (bytes.flatMap hexByte) = some bytes := by
  induction bytes with
  | nil => rfl
  | cons byte bytes ih =>
    have bound := byte.toNat_lt
    have halves : 16 * (byte.toNat / 16) + byte.toNat % 16 = byte.toNat := by omega
    have high := hexValue?_upper_hexDigit (byte.toNat / 16) (by omega)
    have low := hexValue?_upper_hexDigit (byte.toNat % 16) (by omega)
    rw [List.flatMap_cons, hexByte, List.cons_append, List.singleton_append, readBytes, high, low, ih]
    simp only [Option.bind_eq_bind, Option.bind_some, halves, UInt8.ofNat_toNat, pure]

end Text

namespace Value

/-- Reads a blob: its bytes, and the text behind it. -/
def readBlob : List Char → Option (List UInt8 × List Char)
  | 'X' :: rest => do
    let (digits, after) ← Text.readText '\'' rest
    let bytes ← Text.readBytes digits.toList
    return (bytes, after)
  | _ => none

theorem readBlob_blobLiteral (bytes : List UInt8) (after : List Char)
    (ends : after.head? ≠ some '\'') :
    readBlob ((blobLiteral bytes).toList ++ after) = some (bytes, after) := by
  have letter : "X".toList = ['X'] := rfl
  rw [blobLiteral_eq, String.toList_append, letter, List.append_assoc, List.singleton_append,
    readBlob, Text.readText_quoted '\'' _ _ ends]
  simp [Text.readBytes_hexByte]

theorem blobLiteral_inj {bytes bytes' : List UInt8}
    (same : blobLiteral bytes = blobLiteral bytes') : bytes = bytes' := by
  have read := readBlob_blobLiteral bytes [] (by simp)
  rw [same, readBlob_blobLiteral bytes' [] (by simp)] at read
  cases read
  rfl

theorem isWord_iff_quoteFree {v : Value} (exact : ∀ x, v ≠ float x) :
    v.isWord ↔ QuoteFree v.sql := by
  cases v with
  | null => exact iff_of_true trivial (by decide)
  | boolean truth => cases truth <;> exact iff_of_true trivial (by decide)
  | integer n => exact iff_of_true trivial (quoteFree_integer n.toInt)
  | float x => exact absurd rfl (exact x)
  | string text =>
    refine iff_of_false id fun free => ?_
    exact absurd (free '\'' (by simp [sql, Text.quoted])) (by decide)
  | blob bytes =>
    refine iff_of_false id fun free => ?_
    exact absurd (free '\'' (by simp [sql, blobLiteral])) (by decide)

theorem sql_inj_of_not_isWord {v v' : Value} (exact : ∀ x, v ≠ float x) (exact' : ∀ x, v' ≠ float x)
    (quotes : ¬v.isWord) (quotes' : ¬v'.isWord) (same : v.sql = v'.sql) : v = v' := by
  have string_ne_blob (text : String) (bytes : List UInt8) :
      (string text).sql ≠ (blob bytes).sql := by
    intro same
    have first := congrArg (·.toList.head?) same
    simp [sql, Text.quoted, blobLiteral] at first
  cases v with
  | null | boolean | integer => exact absurd trivial quotes
  | float x => exact absurd rfl (exact x)
  | string text =>
    cases v' with
    | null | boolean | integer => exact absurd trivial quotes'
    | float x => exact absurd rfl (exact' x)
    | string text' => exact congrArg string (Text.quoted_inj same)
    | blob bytes => exact absurd same (string_ne_blob text bytes)
  | blob bytes =>
    cases v' with
    | null | boolean | integer => exact absurd trivial quotes'
    | float x => exact absurd rfl (exact' x)
    | string text => exact absurd same.symm (string_ne_blob text bytes)
    | blob bytes' => exact congrArg blob (blobLiteral_inj same)

theorem sql_injOn : Set.InjOn sql {v | ∀ x, v ≠ float x} := by
  intro v exact v' exact' same
  have kind : v.isWord ↔ v'.isWord := by
    rw [isWord_iff_quoteFree exact, isWord_iff_quoteFree exact', same]
  by_cases word : v.isWord
  · exact sql_inj_of_isWord word (kind.mp word) same
  · exact sql_inj_of_not_isWord exact exact' word (mt kind.mpr word) same

end Value

/-- Strings, quoted identifiers and blobs read back, whatever follows them but another quote, and the
text of a value that is not a float is the text of no other such value. -/
theorem literals_read_back :
    (∀ (text : String) (after : List Char), after.head? ≠ some '\'' →
      Text.readText '\'' ((Value.string text).sql.toList ++ after) = some (text, after)) ∧
    (∀ (dialect : Dialect) (name : String) (after : List Char), dialect.quoteIdentifiers = true →
      after.head? ≠ some '"' →
      Text.readText '"' ((dialect.identifier name).toList ++ after) = some (name, after)) ∧
    (∀ (bytes : List UInt8) (after : List Char), after.head? ≠ some '\'' →
      Value.readBlob ((Value.blob bytes).sql.toList ++ after) = some (bytes, after)) ∧
    Set.InjOn Value.sql {v | ∀ x, v ≠ .float x} := by
  refine ⟨Text.readText_quoted '\'', fun dialect name after quoting ends => ?_,
    Value.readBlob_blobLiteral, Value.sql_injOn⟩
  rw [Dialect.identifier, if_pos quoting]
  exact Text.readText_quoted '"' name after ends

theorem literals_read_back_quotes :
    Text.readText '\'' ((Value.string "'it''s'").sql.toList ++ [' ', '\'']) =
        some ("'it''s'", [' ', '\'']) ∧
      Text.readText '"' (((Dialect.mk true).identifier "\"").toList ++ []) = some ("\"", []) ∧
      Value.readBlob ((Value.blob [39, 0, 255]).sql.toList ++ [')']) = some ([39, 0, 255], [')']) ∧
      (Value.string "NULL").sql ≠ Value.null.sql := by
  obtain ⟨strings, identifiers, blobs, apart⟩ := literals_read_back
  refine ⟨strings _ _ (by decide), identifiers _ _ _ rfl (by decide), blobs _ _ (by decide), ?_⟩
  intro same
  cases apart (by simp) (by simp) same

end SqlExpr
