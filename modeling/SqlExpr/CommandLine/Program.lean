import SqlExpr.CommandLine.Arguments
import SqlExpr.Conditions.OfJson
import SqlExpr.Json.Reader
import SqlExpr.Json.Writer
import SqlExpr.Render.Sql
import SqlExpr.Tree.Encode

/-!
The program on the command line: a condition specifier as JSON in, the SQL text or the tree of its
predicate out.
-/

namespace SqlExpr.CommandLine

inductive Outcome where
  | misused
  | failed (message : String) (cause : Option Error)
  | printed (text : String)

def Outcome.exitCode : Outcome → UInt8
  | misused => 2
  | failed .. => 1
  | printed _ => 0

def causeText (cause : Error) : String :=
  String.ofList (Text.trimEnd cause.message.toList)

def orFail (message : String) : Except Error α → Except Outcome α
  | .ok result => .ok result
  | .error cause => .error (.failed message (some cause))

def connective (symbol : String) : Except Outcome Operator :=
  match Operator.ofSymbol? symbol with
  | none => .error (.failed "Failed to parse combinator" (some (.unknownOperator symbol)))
  | some op =>
    if op = .and ∨ op = .or then .ok op
    else .error (.failed ("Combinator must be AND or OR, got " ++ op.symbol) none)

def output (request : Request) : Except Outcome String := do
  let json ← match Json.ofText? request.conditions with
    | some json => .ok json
    | none => .error (.failed "Failed to parse conditions JSON" none)
  let conditions ← orFail "Invalid condition specifier" (Conditions.ofJson json)
  let op ← connective request.combinator
  let predicate ← orFail "Failed to build predicate"
    (Predicate.ofConditions conditions op request.negate)
  if request.tree then
    return (complexJson .boolean predicate.op (Expr.toJsons predicate.args)).pretty
  else
    orFail "Failed to render predicate"
      (predicate.toExpr.sql { quoteIdentifiers := request.quoteIdentifiers })

def run (args : List String) : Outcome :=
  match Request.ofArguments? args with
  | none => .misused
  | some request =>
    match output request with
    | .ok text => .printed (text ++ "\n")
    | .error outcome => outcome

end SqlExpr.CommandLine
