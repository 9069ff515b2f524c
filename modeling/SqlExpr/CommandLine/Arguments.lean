/-!
Command line arguments. Short switches may share a dash, and the value of an option stands behind
it, joined by an equals sign or as the next argument. Every switch and option may be given once.
-/

namespace SqlExpr.CommandLine

inductive Switch where
  | negate
  | tree
  | noQuote
  | debug
  deriving DecidableEq, Repr

inductive Setting where
  | conditions
  | combinator
  deriving DecidableEq, Repr

namespace Switch

def ofLongName? : String → Option Switch
  | "negate" => some negate
  | "tree" => some tree
  | "no-quote" => some noQuote
  | "debug" => some debug
  | _ => none

def ofShortName? : Char → Option Switch
  | 'n' => some negate
  | 't' => some tree
  | 'd' => some debug
  | _ => none

end Switch

namespace Setting

def ofLongName? : String → Option Setting
  | "conditions" => some conditions
  | "combinator" => some combinator
  | _ => none

def ofShortName? : Char → Option Setting
  | 'c' => some conditions
  | _ => none

end Setting

/-- One item of an argument; a setting without value takes the next argument. -/
inductive Item where
  | switch (s : Switch)
  | setting (s : Setting) (held : Option String)

def shortItems? : List Char → Option (List Item)
  | [] => some []
  | c :: rest =>
    match Switch.ofShortName? c, Setting.ofShortName? c with
    | some s, _ => (shortItems? rest).map (.switch s :: ·)
    | none, some s =>
      match rest with
      | [] => some [.setting s none]
      | '=' :: held => some [.setting s (some (String.ofList held))]
      | held => some [.setting s (some (String.ofList held))]
    | none, none => none

def longItem? (text : List Char) : Option Item :=
  let name := String.ofList (text.takeWhile (· != '='))
  match text.dropWhile (· != '=') with
  | [] => (Switch.ofLongName? name).map .switch <|>
      (Setting.ofLongName? name).map (.setting · none)
  | _ :: held => (Setting.ofLongName? name).map (.setting · (some (String.ofList held)))

def items? (arg : String) : Option (List Item) :=
  match arg.toList with
  | '-' :: '-' :: name => (longItem? name).map ([·])
  | '-' :: c :: names => shortItems? (c :: names)
  | _ => none

def isValue (arg : String) : Bool :=
  match arg.toList with
  | '-' :: _ :: _ => false
  | _ => true

structure Given where
  switches : List Switch := []
  settings : List (Setting × String) := []

namespace Given

def addSwitch? (given : Given) (s : Switch) : Option Given :=
  if s ∈ given.switches then none else some { given with switches := s :: given.switches }

def addSetting? (given : Given) (s : Setting) (held : String) : Option Given :=
  if (given.settings.lookup s).isSome then none
  else some { given with settings := (s, held) :: given.settings }

/-- Adds the items of one argument; also the setting that waits for its value. -/
def addItems? (given : Given) : List Item → Option (Given × Option Setting)
  | [] => some (given, none)
  | [.setting s none] => some (given, some s)
  | .switch s :: rest => do (← given.addSwitch? s).addItems? rest
  | .setting s (some held) :: rest => do (← given.addSetting? s held).addItems? rest
  | .setting _ none :: _ => none

def addAll? (given : Given) : List String → Option Given
  | [] => some given
  | arg :: rest =>
    if arg = "--" then
      if rest.isEmpty then some given else none
    else
      match (items? arg).bind given.addItems? with
      | none => none
      | some (given, none) => given.addAll? rest
      | some (given, some s) =>
        match rest with
        | [] => none
        | held :: rest =>
          if isValue held then
            match given.addSetting? s held with
            | some given => given.addAll? rest
            | none => none
          else none

end Given

structure Request where
  conditions : String
  combinator : String
  negate : Bool
  tree : Bool
  quoteIdentifiers : Bool

def Request.ofArguments? (args : List String) : Option Request := do
  let given ← ({} : Given).addAll? args
  let conditions ← given.settings.lookup .conditions
  return {
    conditions
    combinator := (given.settings.lookup .combinator).getD "AND"
    negate := .negate ∈ given.switches
    tree := .tree ∈ given.switches
    quoteIdentifiers := .noQuote ∉ given.switches }

end SqlExpr.CommandLine
