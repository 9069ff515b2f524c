import SqlExpr.Decimal.Layout
import SqlExpr.Json.Basic
import SqlExpr.Text.Hex

/-!
Writing JSON text, on one line or over many.
-/

namespace SqlExpr.Json

def escapeChar (c : Char) : List Char :=
  match c with
  | '"' => ['\\', '"']
  | '\\' => ['\\', '\\']
  | '\x08' => ['\\', 'b']
  | '\x0c' => ['\\', 'f']
  | '\n' => ['\\', 'n']
  | '\r' => ['\\', 'r']
  | '\t' => ['\\', 't']
  | c =>
    if c.toNat < 0x20 then
      ['\\', 'u', '0', '0', Text.hexDigit (c.toNat / 16), Text.hexDigit (c.toNat % 16)]
    else [c]

def writeString (text : String) : String :=
  String.ofList ('"' :: (text.toList.flatMap escapeChar ++ ['"']))

/-- A float that is no number has no place in JSON and is written as null. -/
def writeNumber : JsonNumber → String
  | .integer n => toString n.toInt
  | .float x => (Decimal.Layout.wide.write? x).getD "null"

mutual

def compact : Json → String
  | null => "null"
  | bool truth => if truth then "true" else "false"
  | number n => writeNumber n
  | string text => writeString text
  | array items => "[" ++ ",".intercalate (compactAll items) ++ "]"
  | object entries => "\x7b" ++ ",".intercalate (compactEntries entries) ++ "\x7d"

def compactAll : List Json → List String
  | [] => []
  | item :: rest => item.compact :: compactAll rest

def compactEntries : List (String × Json) → List String
  | [] => []
  | (key, held) :: rest => (writeString key ++ ":" ++ held.compact) :: compactEntries rest

end

def newLine (level : Nat) : String :=
  String.ofList ('\n' :: List.replicate (2 * level) ' ')

/-- Lines between brackets, one level further in; brackets alone if there is none. -/
def block (opening closing : String) (level : Nat) (lines : List String) : String :=
  if lines.isEmpty then opening ++ closing
  else
    let inner := newLine (level + 1)
    opening ++ inner ++ ("," ++ inner).intercalate lines ++ newLine level ++ closing

mutual

def prettyAt (level : Nat) : Json → String
  | null => "null"
  | bool truth => if truth then "true" else "false"
  | number n => writeNumber n
  | string text => writeString text
  | array items => block "[" "]" level (prettyAll (level + 1) items)
  | object entries => block "\x7b" "\x7d" level (prettyEntries (level + 1) entries)

def prettyAll (level : Nat) : List Json → List String
  | [] => []
  | item :: rest => item.prettyAt level :: prettyAll level rest

def prettyEntries (level : Nat) : List (String × Json) → List String
  | [] => []
  | (key, held) :: rest =>
    (writeString key ++ ": " ++ held.prettyAt level) :: prettyEntries level rest

end

def pretty (value : Json) : String :=
  value.prettyAt 0

end SqlExpr.Json
