import SqlExpr.Conditions
import SqlExpr.Error
import SqlExpr.Json.Basic

/-!
Condition specifiers from JSON. An object is a mapping; the keys of an outermost object name
columns, those of an object within one are operators or further columns and are taken as they are.
An array is a list, and a string between slashes is a regular expression.
-/

namespace SqlExpr

namespace Expr

def ofJsonNumber : JsonNumber → Value
  | .integer n => .integer n
  | .float x => .float x

def ofJsonString (text : String) : Expr :=
  match Pattern.ofText text with
  | .regex source caseInsensitive => pattern (.regex source caseInsensitive)
  | .literal .. => value (.string text)

mutual

/-- The operand of a JSON value whose objects are keyed by `key`; objects within one are keyed by
plain identifiers. -/
def ofJsonKeyed (key : String → Expr) : Json → Expr
  | .null => value .null
  | .bool truth => value (.boolean truth)
  | .number n => value (ofJsonNumber n)
  | .string text => ofJsonString text
  | .array items => list (ofJsonItems key items)
  | .object entries => (Conditions.ofList .mapping (ofJsonEntries key entries)).toExpr

def ofJsonItems (key : String → Expr) : List Json → List Expr
  | [] => []
  | item :: rest => ofJsonKeyed key item :: ofJsonItems key rest

def ofJsonEntries (key : String → Expr) : List (String × Json) → List (Expr × Expr)
  | [] => []
  | (name, held) :: rest => (key name, ofJsonKeyed identifier held) :: ofJsonEntries key rest

end

def ofJson (json : Json) : Expr :=
  ofJsonKeyed named json

/-- A string as key of a pair names a column, as the key of an object does. -/
def keyOfPair : Expr → Expr
  | value (.string column) => named column
  | key => key

end Expr

namespace Conditions

def ofJson (json : Json) : Except Error Conditions :=
  match ofSpecifier? (.ofJson json) with
  | some ⟨.mapping, pairs⟩ => .ok ⟨.mapping, pairs⟩
  | some ⟨.pairs, pairs⟩ => .ok ⟨.pairs, pairs.map fun (k, v) => (k.keyOfPair, v)⟩
  | none => .error (.invalidArgument .notConditions)

end Conditions

end SqlExpr
