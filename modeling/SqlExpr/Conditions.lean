import SqlExpr.Column
import SqlExpr.Expr.Equality

/-!
Column => condition specifiers: unique keys in a mapping, ordered pairs otherwise.
-/

namespace SqlExpr.Conditions

def empty (kind : ConditionsKind) : Conditions :=
  ⟨kind, []⟩

def replace (key held : Expr) : List (Expr × Expr) → List (Expr × Expr)
  | [] => [(key, held)]
  | (k, v) :: rest => if k == key then (k, held) :: rest else (k, v) :: replace key held rest

/-- A mapping gives a key it has the new value; ordered pairs grow. -/
def insert (key held : Expr) (c : Conditions) : Conditions :=
  match c.kind with
  | .mapping => ⟨.mapping, replace key held c.pairs⟩
  | .pairs => ⟨.pairs, c.pairs ++ [(key, held)]⟩

def insertNamed (column : String) (held : Expr) (c : Conditions) : Conditions :=
  c.insert (.named column) held

def ofList (kind : ConditionsKind) (entries : List (Expr × Expr)) : Conditions :=
  entries.foldl (fun c (k, v) => c.insert k v) (empty kind)

def size (c : Conditions) : Nat :=
  c.pairs.length

def isEmpty (c : Conditions) : Bool :=
  c.pairs.isEmpty

/-- Conditions as they are, and a list of pairs as ordered pairs. -/
def ofSpecifier? : Expr → Option Conditions
  | .conditions kind pairs => some ⟨kind, pairs⟩
  | .list items => if Expr.arePairs items then some ⟨.pairs, items.filterMap Expr.pair?⟩ else none
  | _ => none

def asList (c : Conditions) : Expr :=
  .list (c.pairs.map Expr.ofPair)

end SqlExpr.Conditions
