/-!
Hexadecimal digits.
-/

namespace SqlExpr.Text

def hexDigits : List Char :=
  ['0', '1', '2', '3', '4', '5', '6', '7', '8', '9', 'a', 'b', 'c', 'd', 'e', 'f']

def hexDigit (n : Nat) : Char :=
  hexDigits.getD n '0'

/-- The number that a digit of either case stands for. -/
def hexValue? (c : Char) : Option Nat :=
  hexDigits.findIdx? (· == c.toLower)

def hexByte (byte : UInt8) : List Char :=
  [(hexDigit (byte.toNat / 16)).toUpper, (hexDigit (byte.toNat % 16)).toUpper]

theorem hexValue?_hexDigit : ∀ n < 16, hexValue? (hexDigit n) = some n := by decide

end SqlExpr.Text
