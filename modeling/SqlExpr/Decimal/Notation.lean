import SqlExpr.Decimal.Binary

/-!
Decimals as they are written: a sign, digits with an optional point, an optional exponent. They read
as the nearest float; infinities and the number that is none have names.
-/

namespace SqlExpr.Decimal

def natural? : List Char → Option Nat
  | [] => none
  | digits => digits.foldl (fun n c =>
      n.bind fun n => if c.isDigit then some (10 * n + (c.toNat - '0'.toNat)) else none) (some 0)

def integer? : List Char → Option Int
  | '-' :: digits => (natural? digits).map fun n => -(n : Int)
  | '+' :: digits => (natural? digits).map Int.ofNat
  | digits => (natural? digits).map Int.ofNat

/-- The nearest float to `digits * 10 ^ exponent`. An exponent far outside the range of floats is
cut, which leaves the result at zero or infinity. -/
def scaled (negative : Bool) (digits : Nat) (exponent : Int) : Float :=
  let size := (Nat.toDigits 10 digits).length
  let exponent := max (min exponent 400) (-400 - size)
  Binary.nearest negative (digits * Nat.pow 10 exponent.toNat)
    (Nat.pow 10 (-exponent).toNat)

/-- Digits with at most one point among them: the digits as a number, and how many follow the
point. -/
def significand? (text : List Char) : Option (Nat × Nat) :=
  let whole := text.takeWhile (· != '.')
  let fraction := (text.dropWhile (· != '.')).drop 1
  (natural? (whole ++ fraction)).map fun digits => (digits, fraction.length)

def magnitude? (negative : Bool) (text : List Char) : Option Float := do
  let isMark (c : Char) := c == 'e' || c == 'E'
  let (digits, places) ← significand? (text.takeWhile (!isMark ·))
  let exponent ← match text.dropWhile (!isMark ·) with
    | [] => some 0
    | _ :: exponent => integer? exponent
  return scaled negative digits (exponent - places)

def named? (name : List Char) : Option Float :=
  match String.ofList (name.map Char.toLower) with
  | "inf" | "infinity" => some (1.0 / 0.0)
  | "nan" => some (0.0 / 0.0)
  | _ => none

def read? (text : String) : Option Float :=
  match text.toList with
  | '-' :: rest => magnitude? true rest <|> (named? rest).map Float.neg
  | '+' :: rest => magnitude? false rest <|> named? rest
  | rest => magnitude? false rest <|> named? rest

end SqlExpr.Decimal
