import SqlExpr.Decimal.Layout
import SqlExpr.Expr.Basic
import SqlExpr.Text.Hex
import SqlExpr.Text.Quoted

/-!
How identifiers and literal values are written in SQL.
-/

namespace SqlExpr

structure Dialect where
  quoteIdentifiers : Bool := true
  deriving DecidableEq, Repr

def Dialect.identifier (dialect : Dialect) (name : String) : String :=
  if dialect.quoteIdentifiers then Text.quoted '"' name else name

namespace Value

/-- A float that has no digits is cast from its name. -/
def castFloat (x : Float) : String :=
  let name := if x.isNaN then "NaN" else if x < 0 then "-Infinity" else "Infinity"
  "CAST('" ++ name ++ "' AS DOUBLE PRECISION)"

def blobLiteral (bytes : List UInt8) : String :=
  String.ofList ('X' :: '\'' :: (bytes.flatMap Text.hexByte ++ ['\'']))

def sql : Value → String
  | null => "NULL"
  | boolean true => "TRUE"
  | boolean false => "FALSE"
  | integer n => toString n.toInt
  | float x => (Decimal.Layout.plain.write? x).getD (castFloat x)
  | string text => Text.quoted '\'' text
  | blob bytes => blobLiteral bytes

end Value

end SqlExpr
