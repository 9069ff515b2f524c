import SqlExpr.Text.Hex

/-!
Tokens of JSON text. One machine reads the text character by character; it is between tokens or
inside one.
-/

namespace SqlExpr.Json

inductive Token where
  | openArray
  | closeArray
  | openObject
  | closeObject
  | comma
  | colon
  | word (letters : List Char)
  | number (digits : List Char)
  /-- There is no text if a half of a pair of surrogates stands alone in it. -/
  | string (text : Option String)

/-- Where the machine is. What a token holds so far is kept in reverse order; a string in which half
of a pair of surrogates stands alone holds nothing. -/
inductive Scanning where
  | between
  | word (held : List Char)
  | number (held : List Char)
  | string (held : Option (List Char))
  /-- Behind a backslash. -/
  | escape (held : Option (List Char))
  /-- Inside `\uXXXX`: the number read so far and how many digits are still to come; `high` is the
  first half of a pair of surrogates. -/
  | code (held : Option (List Char)) (high : Option Nat) (sum remaining : Nat)
  /-- Behind the first half of a pair, before its backslash. -/
  | half (held : Option (List Char)) (high : Nat)
  /-- Behind the first half of a pair and a backslash. -/
  | halfEscape (held : Option (List Char)) (high : Nat)

structure Scanner where
  /-- Finished tokens, the last one first. -/
  tokens : List Token
  scanning : Scanning

namespace Scanner

def start : Scanner := ⟨[], .between⟩

def isSpace (c : Char) : Bool :=
  c == ' ' || c == '\t' || c == '\n' || c == '\r'

def isNumberChar (c : Char) : Bool :=
  c.isDigit || c == '-' || c == '+' || c == '.' || c == 'e' || c == 'E'

def begin (tokens : List Token) (c : Char) : Option Scanner :=
  if isSpace c then some ⟨tokens, .between⟩
  else if c.isDigit || c == '-' then some ⟨tokens, .number [c]⟩
  else if c.isLower then some ⟨tokens, .word [c]⟩
  else match c with
    | '[' => some ⟨.openArray :: tokens, .between⟩
    | ']' => some ⟨.closeArray :: tokens, .between⟩
    | '\x7b' => some ⟨.openObject :: tokens, .between⟩
    | '\x7d' => some ⟨.closeObject :: tokens, .between⟩
    | ',' => some ⟨.comma :: tokens, .between⟩
    | ':' => some ⟨.colon :: tokens, .between⟩
    | '"' => some ⟨tokens, .string (some [])⟩
    | _ => none

/-- What a backslash and a letter other than `u` stand for. -/
def escaped? : Char → Option Char
  | '"' => some '"'
  | '\\' => some '\\'
  | '/' => some '/'
  | 'b' => some '\x08'
  | 'f' => some '\x0c'
  | 'n' => some '\n'
  | 'r' => some '\r'
  | 't' => some '\t'
  | _ => none

/-- The state behind a whole `\uXXXX`. -/
def finishCode (held : Option (List Char)) (high : Option Nat) (code : Nat) : Scanning :=
  match high with
  | some high =>
    if 0xDC00 ≤ code ∧ code ≤ 0xDFFF then
      .string (held.map (Char.ofNat (0x10000 + (high - 0xD800) * 0x400 + (code - 0xDC00)) :: ·))
    else .string none
  | none =>
    if 0xDC00 ≤ code ∧ code ≤ 0xDFFF then .string none
    else if 0xD800 ≤ code ∧ code ≤ 0xDBFF then .half held code
    else .string (held.map (Char.ofNat code :: ·))

def inString (tokens : List Token) (held : Option (List Char)) (c : Char) : Option Scanner :=
  if c == '"' then
    some ⟨.string (held.map fun held => String.ofList held.reverse) :: tokens, .between⟩
  else if c == '\\' then some ⟨tokens, .escape held⟩
  else if c.toNat < 0x20 then none
  else some ⟨tokens, .string (held.map (c :: ·))⟩

def inEscape (tokens : List Token) (held : Option (List Char)) (c : Char) : Option Scanner :=
  if c == 'u' then some ⟨tokens, .code held none 0 4⟩
  else (escaped? c).map fun meant => ⟨tokens, .string (held.map (meant :: ·))⟩

def step : Scanner → Char → Option Scanner
  | ⟨tokens, .between⟩, c => begin tokens c
  | ⟨tokens, .word held⟩, c =>
    if c.isLower then some ⟨tokens, .word (c :: held)⟩
    else begin (.word held.reverse :: tokens) c
  | ⟨tokens, .number held⟩, c =>
    if isNumberChar c then some ⟨tokens, .number (c :: held)⟩
    else begin (.number held.reverse :: tokens) c
  | ⟨tokens, .string held⟩, c => inString tokens held c
  | ⟨tokens, .escape held⟩, c => inEscape tokens held c
  | ⟨tokens, .code held high sum remaining⟩, c => do
    let digit ← Text.hexValue? c
    let sum := 16 * sum + digit
    if remaining ≤ 1 then return ⟨tokens, finishCode held high sum⟩
    else return ⟨tokens, .code held high sum (remaining - 1)⟩
  | ⟨tokens, .half held high⟩, c =>
    if c == '\\' then some ⟨tokens, .halfEscape held high⟩ else inString tokens none c
  | ⟨tokens, .halfEscape held high⟩, c =>
    if c == 'u' then some ⟨tokens, .code held (some high) 0 4⟩ else inEscape tokens none c

/-- The tokens at the end of the text; it may not end inside a string. -/
def finish : Scanner → Option (List Token)
  | ⟨tokens, .between⟩ => some tokens.reverse
  | ⟨tokens, .word held⟩ => some (Token.word held.reverse :: tokens).reverse
  | ⟨tokens, .number held⟩ => some (Token.number held.reverse :: tokens).reverse
  | _ => none

end Scanner

def tokens? (text : String) : Option (List Token) :=
  (text.toList.foldlM Scanner.step Scanner.start).bind Scanner.finish

end SqlExpr.Json
