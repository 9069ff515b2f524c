/-!
The binary form of a finite `Float`: a sign, a natural mantissa and a power of two. Main functions:
`Binary.ofFloat?` takes a float apart, `Binary.nearest` rounds a quotient of naturals to the nearest
float.
-/

namespace SqlExpr.Decimal

/-- The number `mantissa * 2 ^ exponent`, negated if `negative`. -/
structure Binary where
  negative : Bool
  mantissa : Nat
  exponent : Int
  deriving DecidableEq, Repr

namespace Binary

def fractionBits : Nat := 52

def fullMantissa : Nat := Nat.pow 2 fractionBits

def signBit : Nat := Nat.pow 2 63

def leastExponent : Int := -1074

def greatestExponent : Int := 971

def specialField : Nat := 2047

/-- Nothing for what is not a finite number. -/
def ofFloat? (x : Float) : Option Binary :=
  let bits := x.toBits.toNat
  let field := bits / fullMantissa % (specialField + 1)
  let fraction := bits % fullMantissa
  let negative := signBit ≤ bits
  if field = specialField then none
  else if field = 0 then some ⟨negative, fraction, leastExponent⟩
  else some ⟨negative, fullMantissa + fraction, leastExponent + field - 1⟩

/-- The bits of a mantissa below `2 ^ 53` and an exponent, infinity for an exponent too large. A
mantissa below `2 ^ 52` needs the least exponent. -/
def magnitudeBits (mantissa : Nat) (exponent : Int) : Nat :=
  if greatestExponent < exponent then specialField * fullMantissa
  else if mantissa < fullMantissa then mantissa
  else (exponent - leastExponent + 1).toNat * fullMantissa + (mantissa - fullMantissa)

/-- The quotient rounded to the nearest natural number, a half going to the even neighbour. -/
def roundDiv (num den : Nat) : Nat :=
  let quotient := num / den
  let twice := 2 * (num % den)
  if twice < den ∨ (twice = den ∧ quotient % 2 = 0) then quotient else quotient + 1

/-- The bits of the float nearest to `num / den`, a half going to the even neighbour. -/
def nearestBits (num den : Nat) : Nat :=
  if num = 0 then 0
  else
    let estimate : Int := (num.log2 : Int) - den.log2 - fractionBits
    let atLeastOne := den * Nat.pow 2 num.log2 ≤ num * Nat.pow 2 den.log2
    let exponent := max leastExponent (if atLeastOne then estimate else estimate - 1)
    let rounded := roundDiv (num * Nat.pow 2 (-exponent).toNat) (den * Nat.pow 2 exponent.toNat)
    if rounded = 2 * fullMantissa then magnitudeBits fullMantissa (exponent + 1)
    else magnitudeBits rounded exponent

def nearest (negative : Bool) (num den : Nat) : Float :=
  let magnitude := nearestBits num den
  Float.ofBits (if negative then magnitude + signBit else magnitude).toUInt64

end Binary

end SqlExpr.Decimal
