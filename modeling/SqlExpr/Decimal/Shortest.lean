import SqlExpr.Decimal.Binary

/-!
The decimal with the fewest digits that reads back as a given float, and of those the nearest one.
The numbers that round to a float form an interval around it, whose ends count if its mantissa is
even. The coarsest grid of powers of ten with a point in the interval gives the digits.
-/

namespace SqlExpr.Decimal

inductive Tie where
  | up
  | toEven
  deriving DecidableEq, Repr

structure Digits where
  digits : Nat
  exponent : Int
  deriving DecidableEq, Repr

/-- Four numbers over one denominator: the ends of the interval that rounds to a float, the float
and, as a denominator, the unit. -/
structure Interval where
  low : Nat
  value : Nat
  high : Nat
  closed : Bool
  unit : Nat

def Interval.ofBinary (b : Binary) (grid : Int) : Interval :=
  let scale := Nat.pow 2 (b.exponent - 2).toNat * Nat.pow 10 (-grid).toNat
  let narrow := b.mantissa = Binary.fullMantissa ∧ Binary.leastExponent < b.exponent
  { low := (4 * b.mantissa - if narrow then 1 else 2) * scale
    value := 4 * b.mantissa * scale
    high := (4 * b.mantissa + 2) * scale
    closed := b.mantissa % 2 = 0
    unit := Nat.pow 2 (2 - b.exponent).toNat * Nat.pow 10 grid.toNat }

def Interval.holds (i : Interval) (point : Nat) : Bool :=
  let scaled := point * i.unit
  if i.closed then i.low ≤ scaled && scaled ≤ i.high else i.low < scaled && scaled < i.high

/-- The point of the grid to take, if the interval holds a neighbour of its value. -/
def Interval.choose? (i : Interval) (tie : Tie) : Option Nat :=
  let below := i.value / i.unit
  let twice := 2 * (i.value % i.unit)
  let nearer :=
    if twice < i.unit then below
    else if i.unit < twice then below + 1
    else match tie with
      | .up => below + 1
      | .toEven => below + below % 2
  let farther := 2 * below + 1 - nearer
  if i.holds nearer then some nearer
  else if i.holds farther then some farther
  else none

def shortestFrom (tie : Tie) (b : Binary) : Nat → Int → Digits
  | 0, grid => ⟨0, grid⟩
  | grids + 1, grid =>
    match (Interval.ofBinary b grid).choose? tie with
    | some digits => ⟨digits, grid⟩
    | none => shortestFrom tie b grids (grid - 1)

/-- An upper bound of the decimal exponent; `30103 / 100000` is a little more than the logarithm of
two. -/
def gridAbove (b : Binary) : Int :=
  ((b.mantissa.log2 + 1 : Int) + b.exponent) * 30103 / 100000 + 1

/-- The shortest digits of a number other than zero; seventeen digits always suffice. -/
def shortest (tie : Tie) (b : Binary) : Digits :=
  shortestFrom tie b 20 (gridAbove b)

end SqlExpr.Decimal
