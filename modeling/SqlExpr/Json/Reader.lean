import SqlExpr.Json.Number
import SqlExpr.Json.Token

/-!
Reading JSON text. A machine with a stack of open arrays and objects takes one token after the
other. Reading is strict: one value, nothing behind it, and a bound on nesting.
-/

namespace SqlExpr.Json

/-- An open array or object; what it holds so far, the last first, and the key that waits for its
value. -/
inductive Frame where
  | array (items : List Json)
  | object (entries : List (String × Json)) (key : String)

inductive Awaiting where
  | value
  | itemOrClose
  | keyOrClose
  | key
  | colon
  | commaOrClose
  | nothing (result : Json)

structure Reading where
  stack : List Frame
  awaiting : Awaiting

/-- What a reader accepts beyond the grammar. -/
structure Limits where
  depth : Option Nat
  number : List Char → Option JsonNumber
  text : Option String → Option String

namespace Reading

def start : Reading := ⟨[], .value⟩

def complete (held : Json) : List Frame → Reading
  | [] => ⟨[], .nothing held⟩
  | .array items :: rest => ⟨.array (held :: items) :: rest, .commaOrClose⟩
  | .object entries key :: rest => ⟨.object ((key, held) :: entries) "" :: rest, .commaOrClose⟩

def push (limits : Limits) (frame : Frame) (awaiting : Awaiting) (stack : List Frame) :
    Option Reading :=
  if limits.depth.all (stack.length < ·) then some ⟨frame :: stack, awaiting⟩ else none

def close (closing : Token) : List Frame → Option Reading
  | .array items :: rest =>
    match closing with
    | .closeArray => some (complete (.array items.reverse) rest)
    | _ => none
  | .object entries _ :: rest =>
    match closing with
    | .closeObject => some (complete (.object entries.reverse) rest)
    | _ => none
  | [] => none

def value (limits : Limits) (stack : List Frame) : Token → Option Reading
  | .openArray => push limits (.array []) .itemOrClose stack
  | .openObject => push limits (.object [] "") .keyOrClose stack
  | .string text => (limits.text text).map fun text => complete (.string text) stack
  | .number digits => (limits.number digits).map fun n => complete (.number n) stack
  | .word ['t', 'r', 'u', 'e'] => some (complete (.bool true) stack)
  | .word ['f', 'a', 'l', 's', 'e'] => some (complete (.bool false) stack)
  | .word ['n', 'u', 'l', 'l'] => some (complete .null stack)
  | _ => none

/-- A string where a key is due. The keys of the outermost object always have to be text. -/
def named (limits : Limits) (key : Option String) : List Frame → Option Reading
  | .object entries _ :: rest => do
    let key ← if rest.isEmpty then key else limits.text key
    return ⟨.object entries key :: rest, .colon⟩
  | _ => none

def step (limits : Limits) : Reading → Token → Option Reading
  | ⟨stack, .value⟩, token => value limits stack token
  | ⟨stack, .itemOrClose⟩, .closeArray => close .closeArray stack
  | ⟨stack, .itemOrClose⟩, token => value limits stack token
  | ⟨stack, .keyOrClose⟩, .closeObject => close .closeObject stack
  | ⟨stack, .keyOrClose⟩, .string key => named limits key stack
  | ⟨stack, .key⟩, .string key => named limits key stack
  | ⟨stack, .colon⟩, .colon => some ⟨stack, .value⟩
  | ⟨.array items :: rest, .commaOrClose⟩, .comma => some ⟨.array items :: rest, .value⟩
  | ⟨.object entries key :: rest, .commaOrClose⟩, .comma => some ⟨.object entries key :: rest, .key⟩
  | ⟨stack, .commaOrClose⟩, token => close token stack
  | _, _ => none

def finish : Reading → Option Json
  | ⟨_, .nothing result⟩ => some result
  | _ => none

end Reading

/-- The value of a text, each entry of an object as it is written. -/
def entriesAsWritten? (limits : Limits) (text : String) : Option Json := do
  let tokens ← tokens? text
  (← tokens.foldlM (Reading.step limits) Reading.start).finish

/-- Numbers of any form that are floats or whole, strings that are text, and a bounded nesting. -/
def Limits.strict : Limits := ⟨some 127, JsonNumber.read?, id⟩

def Limits.deep : Limits := ⟨none, JsonNumber.read?, id⟩

/-- For values whose form alone matters. -/
def Limits.form : Limits := ⟨none, JsonNumber.skim?, fun text => some (text.getD "")⟩

/-- The value of a text; a repeated key keeps its first position and takes its last value. -/
def read? (limits : Limits) (text : String) : Option Json :=
  (entriesAsWritten? limits text).map distinctKeys

def ofText? (text : String) : Option Json :=
  read? .strict text

end SqlExpr.Json
