import SqlExpr.Decimal.Binary
import SqlExpr.Decimal.Notation
import SqlExpr.Json.Basic

/-!
Reading JSON numbers. A whole number that fits 64 bits is kept exactly. Any other number is the
first digits that fit a 64-bit word, as a float, times or divided by a power of ten; it is refused
if that is infinite.
-/

namespace SqlExpr.JsonNumber

structure Written where
  negative : Bool
  whole : List Char
  fraction : Option (List Char)
  exponent : Option (List Char)

/-- Cuts the text at the first character that passes. -/
def cutAt (isCut : Char → Bool) (text : List Char) : List Char × Option (List Char) :=
  match text.dropWhile (!isCut ·) with
  | [] => (text, none)
  | _ :: after => (text.takeWhile (!isCut ·), some after)

def Written.ofChars (text : List Char) : Written :=
  let (negative, text) := match text with
    | '-' :: rest => (true, rest)
    | _ => (false, text)
  let (mantissa, exponent) := cutAt (fun c => c == 'e' || c == 'E') text
  let (whole, fraction) := cutAt (· == '.') mantissa
  { negative, whole, fraction, exponent }

def areDigits (text : List Char) : Bool :=
  !text.isEmpty && text.all Char.isDigit

def isWhole (text : List Char) : Bool :=
  areDigits text && (text.head? != some '0' || text.length == 1)

def isExponent : List Char → Bool
  | '+' :: digits | '-' :: digits => areDigits digits
  | digits => areDigits digits

def Written.isValid (w : Written) : Bool :=
  isWhole w.whole && w.fraction.all areDigits && w.exponent.all isExponent

def wordBound : Nat := Nat.pow 2 64

def signedBound : Nat := Nat.pow 2 63

def digitValue (c : Char) : Nat :=
  c.toNat - '0'.toNat

/-- The first digits that fit a word behind `word`, and how many digits they are. -/
def fill (word : Nat) : List Char → Nat × Nat
  | [] => (word, 0)
  | c :: rest =>
    let next := 10 * word + digitValue c
    if next < wordBound then
      let (filled, count) := fill next rest
      (filled, count + 1)
    else (word, 0)

def powerOfTen (exponent : Nat) : Float :=
  Decimal.Binary.nearest false (Nat.pow 10 exponent) 1

def greatestPower : Nat := 308

/-- Multiplies or divides by a power of ten in floating point, in at most two steps; nothing for an
infinite result. -/
def scale (x : Float) (exponent : Int) : Option Float :=
  if x == 0 then some x
  else if greatestPower < exponent then none
  else if 0 ≤ exponent then
    let scaled := x * powerOfTen exponent.toNat
    if scaled.isInf then none else some scaled
  else if -greatestPower ≤ exponent then some (x / powerOfTen (-exponent).toNat)
  else if -2 * greatestPower ≤ exponent then
    some (x / powerOfTen greatestPower / powerOfTen (-exponent - greatestPower).toNat)
  else some 0

def Written.float? (w : Written) : Option Float :=
  let fraction := w.fraction.getD []
  let (word, whole) := fill 0 w.whole
  let (word, places) := fill word fraction
  let written := ((w.exponent.bind Decimal.integer?).getD 0)
  let exponent := written + (w.whole.length - whole : Nat) - places
  let magnitude := scale (UInt64.ofNat word).toFloat exponent
  magnitude.map fun x => if w.negative then -x else x

/-- A number without point or exponent that fits a signed word. There is no negative zero. -/
def Written.integer? (w : Written) : Option Int64 :=
  match w.fraction, w.exponent, Decimal.natural? w.whole with
  | none, none, some n =>
    if w.negative then
      if 0 < n ∧ n ≤ signedBound then some (Int64.ofInt (-n)) else none
    else if n < signedBound then some (Int64.ofNat n)
    else none
  | _, _, _ => none

def read? (text : List Char) : Option JsonNumber :=
  let w := Written.ofChars text
  if w.isValid then
    match w.integer? with
    | some n => some (.integer n)
    | none => w.float?.map .float
  else none

def skim? (text : List Char) : Option JsonNumber :=
  if (Written.ofChars text).isValid then some (.integer 0) else none

end SqlExpr.JsonNumber
