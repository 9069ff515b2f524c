import SqlExpr.Json.Reader
import SqlExpr.Render.Dialect

/-!
Dialects from JSON text: an object of options, or their values in an array. An option that is not
given keeps its default; options that do not exist are passed over.
-/

namespace SqlExpr.Dialect

def optionName : String := "quote_identifiers"

def ofValues? : List Json → Option Dialect
  | [] => some {}
  | [held] => held.bool?.map fun truth => { quoteIdentifiers := truth }
  | _ => none

def ofJson? : Json → Option Dialect
  | .object entries => ofValues? ((entries.filter (·.1 == optionName)).map (·.2))
  | .array items => ofValues? items
  | _ => none

/-- An option may be given once. -/
def ofText? (text : String) : Option Dialect :=
  (Json.entriesAsWritten? .form text).bind ofJson?

def toJson (dialect : Dialect) : Json :=
  .object [(optionName, .bool dialect.quoteIdentifiers)]

end SqlExpr.Dialect
