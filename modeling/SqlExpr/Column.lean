import SqlExpr.Expr.Basic

/-!
Names of columns: qualification by a double underscore, several columns in one key, and the name
that a key spells.
-/

namespace SqlExpr

/-- The parts before and behind the first double underscore. -/
def cutAtSeparator : List Char → Option (List Char × List Char)
  | [] => none
  | [_] => none
  | c :: d :: rest =>
    if c = '_' ∧ d = '_' then some ([], rest)
    else (cutAtSeparator (d :: rest)).map fun (before, after) => (c :: before, after)

theorem eq_append_of_cutAtSeparator {text before after : List Char}
    (h : cutAtSeparator text = some (before, after)) : text = before ++ '_' :: '_' :: after := by
  fun_induction cutAtSeparator text generalizing before after with
  | case1 => simp at h
  | case2 => simp at h
  | case3 c d rest hc =>
    simp only [Option.some.injEq, Prod.mk.injEq] at h
    simp [← h.1, ← h.2, hc]
  | case4 c d rest _ ih =>
    simp only [Option.map_eq_some_iff, Prod.mk.injEq, Prod.exists] at h
    obtain ⟨start, _, found, rfl, rfl⟩ := h
    simp [ih found]

/-- The names between commas, without blanks around them and without empty ones. -/
def splitNames (names : String) : List String :=
  (((Text.pieces (· == ',') names.toList).map Text.trim).filter (!·.isEmpty)).map String.ofList

def isCompound (name : String) : Bool :=
  name.toList.contains ','

namespace Expr

/-- A plain string that qualifies or is qualified is taken as an identifier. -/
def qualifierPart : Expr → Expr
  | value (.string name) => identifier name
  | other => other

def qualify (table column : Expr) : Expr :=
  qualified table.qualifierPart column.qualifierPart

def allColumns (table : Expr) : Expr :=
  columnAll table.qualifierPart

/-- The column of a free name: `t__c` is the column `c` of `t`. -/
def named (name : String) : Expr :=
  match cutAtSeparator name.toList with
  | some (table, column) =>
    if table.isEmpty || column.isEmpty then identifier name
    else qualified (identifier (String.ofList table)) (identifier (String.ofList column))
  | none => identifier name

def symbolicName? : Expr → Option String
  | identifier name => some name
  | value (.string name) => some name
  | qualified table column => do
    let table ← table.symbolicName?
    let column ← column.symbolicName?
    return table ++ "__" ++ column
  | _ => none

theorem symbolicName?_named (name : String) : (named name).symbolicName? = some name := by
  unfold named
  split
  · rename_i table column cut
    split
    · rfl
    · have text := eq_append_of_cutAtSeparator cut
      simp only [symbolicName?, bind, Option.bind, pure, Option.some.injEq]
      apply String.toList_injective
      simp [text]
  · rfl

def columns : Expr → List Expr
  | identifier name =>
    if isCompound name then (splitNames name).map named else [identifier name]
  | value (.string name) =>
    if isCompound name then (splitNames name).map named else [value (.string name)]
  | qualified table (identifier name) =>
    if isCompound name then (splitNames name).map fun column => qualify table (identifier column)
    else [qualified table (identifier name)]
  | key => [key]

end Expr

end SqlExpr
