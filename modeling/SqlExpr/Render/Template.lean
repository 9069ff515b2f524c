import SqlExpr.Error

/-!
SQL templates. A template has holes, `?` marks or `:name` references, outside single-quoted text;
arguments fill them, and every argument has to be used.
-/

namespace SqlExpr.Template

inductive Part (Hole : Type) where
  | text (c : Char)
  | hole (h : Hole)

def quotedAfter (quoted : Bool) (c : Char) : Bool :=
  if c = '\'' then !quoted else quoted

def marked (quoted : Bool) : List Char → List (Part Unit)
  | [] => []
  | c :: rest =>
    (if c = '?' ∧ !quoted then .hole () else .text c) :: marked (quotedAfter quoted c) rest

def startsName (c : Char) : Bool :=
  c.isAlpha || c == '_'

def continuesName (c : Char) : Bool :=
  c.isAlphanum || c == '_'

/-- The parts of a template whose holes are references; the first `skip` characters are read
already. A double colon is a pair, and a colon that no name follows is a character. -/
def referenced (quoted : Bool) : Nat → List Char → List (Part String)
  | _, [] => []
  | skip + 1, _ :: rest => referenced quoted skip rest
  | 0, c :: rest =>
    if c = ':' ∧ !quoted then
      match rest with
      | [] => [.text ':']
      | d :: _ =>
        if d = ':' then .text ':' :: .text ':' :: referenced quoted 1 rest
        else if startsName d then
          let name := rest.takeWhile continuesName
          .hole (String.ofList name) :: referenced quoted name.length rest
        else .text ':' :: referenced quoted 0 rest
    else .text c :: referenced (quotedAfter quoted c) 0 rest

def fillMarks (template : String) :
    List (Part Unit) → List (Except Error String) → Except Error (List Char)
  | [], [] => .ok []
  | [], unused => .error (.placeholderMismatch template (.unusedArguments unused.length))
  | .text c :: parts, args => do
    let rest ← fillMarks template parts args
    return c :: rest
  | .hole () :: _, [] => .error (.placeholderMismatch template .tooFewArguments)
  | .hole () :: parts, arg :: args => do
    let text ← arg
    let rest ← fillMarks template parts args
    return text.toList ++ rest

/-- Fills each reference with the first argument of its name. -/
def fillReferences (template : String) (args : List (String × Except Error String)) :
    List (Part String) → Except Error (List Char)
  | [] => .ok []
  | .text c :: parts => do
    let rest ← fillReferences template args parts
    return c :: rest
  | .hole name :: parts => do
    let text ← (args.lookup name).getD (.error (.placeholderMismatch template (.unknownName name)))
    let rest ← fillReferences template args parts
    return text.toList ++ rest

/-- The names of arguments that no reference uses; of several arguments of one name the first is the
one that is used. -/
def unusedNames (used : List String) : List String → List String → List String
  | _, [] => []
  | seen, name :: rest =>
    if used.contains name && !seen.contains name then unusedNames used (name :: seen) rest
    else name :: unusedNames used (name :: seen) rest

def holeNames (parts : List (Part String)) : List String :=
  parts.filterMap fun
    | .hole name => some name
    | .text _ => none

def withMarks (template : String) (args : List (Except Error String)) : Except Error String := do
  return String.ofList (← fillMarks template (marked false template.toList) args)

def withReferences (template : String) (args : List (String × Except Error String)) :
    Except Error String := do
  let parts := referenced false 0 template.toList
  let filled ← fillReferences template args parts
  match unusedNames (holeNames parts) [] (args.map (·.1)) with
  | [] => return String.ofList filled
  | unused => .error (.placeholderMismatch template (.unusedNames unused))

end SqlExpr.Template
