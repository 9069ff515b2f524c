import SqlExpr.Column
import SqlExpr.Predicate.Assembly
import SqlExpr.Text.Blank

/-!
Comparisons of one subject: bounds, matches against patterns, and operators by name.
-/

namespace SqlExpr

namespace Predicate

def bounded (subject low high : Operand) : Except Error Predicate := do
  let lower ← assemble .gte [subject, low]
  let upper ← assemble .lte [subject, high]
  assemble .and [lower.toOperand, upper.toOperand]

end Predicate

structure MatchSide where
  operand : Operand
  isRegex : Bool
  isCaseInsensitive : Bool

/-- A pattern matches by its text and brings its flags. -/
def MatchSide.ofOperand (o : Operand) : MatchSide :=
  match o.given with
  | .pattern p => ⟨.plain (.value (.string p.text)), p.isRegex, p.isCaseInsensitive⟩
  | _ => ⟨o, false, false⟩

namespace Predicate

def matchOne (subject : MatchSide) (caseInsensitive : Bool) (candidate : Operand) :
    Except Error Predicate :=
  let candidate := MatchSide.ofOperand candidate
  let op := Pattern.operator (subject.isRegex || candidate.isRegex)
    (subject.isCaseInsensitive || caseInsensitive || candidate.isCaseInsensitive)
  assemble op [subject.operand, candidate.operand]

/-- A match with any of the candidates, of which there has to be one. -/
def matching (subject : Operand) (candidates : List Operand) (caseInsensitive : Bool) :
    Except Error Predicate :=
  if candidates.isEmpty then .error (.operandCount (Pattern.operator false caseInsensitive) 1)
  else do
    let ps ← candidates.mapM (matchOne (.ofOperand subject) caseInsensitive)
    join .or ps

end Predicate

inductive NamedOperator where
  | between (negated : Bool)
  | matching (caseInsensitive negated : Bool)
  | plain (op : Operator)
  deriving DecidableEq, Repr

namespace NamedOperator

/-- The words of a name in lower case, with one space between them; underscores are spaces. -/
def spelling (name : String) : String :=
  let spaced := name.toList.map fun c => if c = '_' then ' ' else c.toLower
  String.ofList ([' '].intercalate (Text.words spaced))

def ofName (name : String) : Except Error NamedOperator :=
  let spelled := spelling name
  match spelled with
  | "between" => .ok (.between false)
  | "not between" => .ok (.between true)
  | "like" => .ok (.matching false false)
  | "ilike" => .ok (.matching true false)
  | "not like" => .ok (.matching false true)
  | "not ilike" => .ok (.matching true true)
  | "eq" => .ok (.plain .eq)
  | "neq" | "ne" => .ok (.plain .neq)
  | "gt" => .ok (.plain .gt)
  | "gte" | "ge" => .ok (.plain .gte)
  | "lt" => .ok (.plain .lt)
  | "lte" | "le" => .ok (.plain .lte)
  | _ =>
    match Operator.ofSymbol? spelled with
    | some op => .ok (.plain op)
    | none => .error (.unknownOperator spelled)

def nameOf (key : Expr) : Except Error String :=
  match key.symbolicName? with
  | some name => .ok name
  | none => .error (.invalidArgument .operatorKey)

end NamedOperator

end SqlExpr
