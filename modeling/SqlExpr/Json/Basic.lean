/-!
JSON values. An object is its list of entries, in order.
-/

namespace SqlExpr

inductive JsonNumber where
  | integer (n : Int64)
  | float (x : Float)

inductive Json where
  | null
  | bool (truth : Bool)
  | number (n : JsonNumber)
  | string (text : String)
  | array (items : List Json)
  | object (entries : List (String × Json))

instance : Inhabited Json := ⟨.null⟩

namespace Json

/-- Gives the key its value, at its first position if it is there already. -/
def setEntry (key : String) (held : Json) : List (String × Json) → List (String × Json)
  | [] => [(key, held)]
  | entry :: rest => if entry.1 == key then (key, held) :: rest else entry :: setEntry key held rest

mutual

/-- The value with each key once in each object: at its first position, with its last value. -/
def distinctKeys : Json → Json
  | array items => array (distinctKeysAll items)
  | object entries => object (distinctEntries [] entries)
  | other => other

def distinctKeysAll : List Json → List Json
  | [] => []
  | item :: rest => item.distinctKeys :: distinctKeysAll rest

def distinctEntries (kept : List (String × Json)) :
    List (String × Json) → List (String × Json)
  | [] => kept
  | (key, held) :: rest => distinctEntries (setEntry key held.distinctKeys kept) rest

end

mutual

def depth : Json → Nat
  | array items => depthAll items + 1
  | object entries => depthEntries entries + 1
  | _ => 0

def depthAll : List Json → Nat
  | [] => 0
  | item :: rest => max item.depth (depthAll rest)

def depthEntries : List (String × Json) → Nat
  | [] => 0
  | (_, held) :: rest => max held.depth (depthEntries rest)

end

def items? : Json → Option (List Json)
  | array items => some items
  | _ => none

def string? : Json → Option String
  | string text => some text
  | _ => none

def bool? : Json → Option Bool
  | bool truth => some truth
  | _ => none

def integer? : Json → Option Int64
  | number (.integer n) => some n
  | _ => none

def field? (key : String) : Json → Option Json
  | object entries => entries.lookup key
  | _ => none

end Json

end SqlExpr
