import SqlExpr.Decimal.Shortest

/-!
Layouts of decimals: which numbers are written positionally and which with an exponent.
-/

namespace SqlExpr.Decimal

/-- Numbers whose leading digit stands at an exponent from `least` to `greatest` are written
positionally, with at least one place after the point; others as digits and an exponent. A negative
exponent has its sign; where `signed` holds, so has any other. -/
structure Layout where
  least : Int
  greatest : Int
  tie : Tie
  signed : Bool

/-- Positional from `0.0001` up to below `1e16`, exponents as in `1e16`; of two nearest candidates
the greater. -/
def Layout.plain : Layout := ⟨-4, 15, .up, false⟩

/-- Positional from `0.00001` up to below `1e16`, exponents as in `1e+16`; of two nearest candidates
the even one. -/
def Layout.wide : Layout := ⟨-5, 15, .toEven, true⟩

/-- The digits with a point behind the first `places` of them, filled up with zeros. -/
def positional (digits : List Char) (places : Int) : List Char :=
  if places ≤ 0 then '0' :: '.' :: (List.replicate (-places).toNat '0' ++ digits)
  else
    let places := places.toNat
    let whole := digits.take places ++ List.replicate (places - digits.length) '0'
    let fraction := digits.drop places
    whole ++ '.' :: (if fraction.isEmpty then ['0'] else fraction)

def withExponent (signed : Bool) (digits : List Char) (exponent : Int) : List Char :=
  let mantissa := match digits with
    | [] => []
    | [first] => [first]
    | first :: others => first :: '.' :: others
  let sign := if signed && 0 ≤ exponent then ['+'] else []
  mantissa ++ 'e' :: (sign ++ (toString exponent).toList)

def Layout.write (layout : Layout) (b : Binary) : String :=
  let sign := if b.negative then ['-'] else []
  if b.mantissa = 0 then String.ofList (sign ++ ['0', '.', '0'])
  else
    let found := shortest layout.tie b
    let digits := Nat.toDigits 10 found.digits
    let leading := found.exponent + digits.length - 1
    let text :=
      if layout.least ≤ leading ∧ leading ≤ layout.greatest then positional digits (leading + 1)
      else withExponent layout.signed digits leading
    String.ofList (sign ++ text)

def Layout.write? (layout : Layout) (x : Float) : Option String :=
  (Binary.ofFloat? x).map layout.write

end SqlExpr.Decimal
