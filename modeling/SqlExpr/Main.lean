import SqlExpr.CommandLine.Program

/-!
The executable: runs the program on its arguments and reports the outcome.
-/

namespace SqlExpr.CommandLine

def usage : String :=
  "usage: [-n|--negate] [-t|--tree] [--no-quote] [-d|--debug] [--combinator AND|OR] " ++
    "-c|--conditions JSON"

def Outcome.report : Outcome → Option String
  | misused => some usage
  | failed message none => some ("Error: " ++ message)
  | failed message (some cause) =>
    some ("Error: " ++ message ++ "\n\nCaused by:\n    " ++ causeText cause)
  | printed _ => none

end SqlExpr.CommandLine

open SqlExpr.CommandLine in
def main (args : List String) : IO UInt32 := do
  let outcome := run args
  if let .printed text := outcome then
    IO.print text
  if let some report := outcome.report then
    IO.eprintln report
  return outcome.exitCode.toUInt32
