import SqlExpr.Predicate.Synthesis

/-!
CASE expressions: branches of a test and a result. With a subject each test is a value that the
subject is compared with; the subject can be folded into the tests.
-/

namespace SqlExpr.Expr

def caseOfBranches (branches : List (Expr × Expr)) (otherwise : Expr) (subject : Option Expr) :
    Except Error Expr :=
  if branches.isEmpty then .error (.invalidArgument .noBranches)
  else .ok (caseWhen branches otherwise subject)

def caseOfSpecifier (tests otherwise : Expr) (subject : Option Expr) : Except Error Expr :=
  match Conditions.ofSpecifier? tests with
  | some c => caseOfBranches c.pairs otherwise subject
  | none => .error (.invalidArgument .caseConditions)

def mergedBranches (subject : Expr) (branches : List (Expr × Expr)) :
    Except Error (List (Expr × Expr)) :=
  branches.mapM fun (test, result) => do
    return ((← Predicate.ofPair subject test).toExpr, result)

/-- An equivalent CASE without subject. -/
def mergedCase (branches : List (Expr × Expr)) (otherwise : Expr) :
    Option Expr → Except Error Expr
  | none => .ok (caseWhen branches otherwise none)
  | some subject => do return caseWhen (← mergedBranches subject branches) otherwise none

end SqlExpr.Expr
