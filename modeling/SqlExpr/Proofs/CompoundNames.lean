import SqlExpr.Column

/-!
Names that commas join in one key, and the columns that the key names. The key is cut at a separator
before it is cut at commas, so a table that the first of the names gives is that of all of them.
-/

namespace SqlExpr

/-- A name that commas set apart from others. -/
structure IsName (name : String) : Prop where
  filled : name ≠ ""
  noComma : ',' ∉ name.toList
  trimmed : Text.trim name.toList = name.toList

def joined (names : List String) : String :=
  ",".intercalate names

/-- The names as keys of their own. A table before the first of several names is that of all. -/
def ownKeys : List String → List String
  | first :: second :: rest =>
    match cutAtSeparator first.toList with
    | some (table, column) =>
      if table.isEmpty then first :: second :: rest
      else (splitNames (String.ofList column) ++ second :: rest).map
        (String.ofList table ++ "__" ++ ·)
    | none => first :: second :: rest
  | names => names

/-- A separator among the names is in the first of them, unless all of them stand before it. -/
def separatesFirst : List String → Bool
  | [] => true
  | first :: rest =>
    (cutAtSeparator first.toList).isSome ||
      (cutAtSeparator (joined (first :: rest)).toList).all (·.2.isEmpty)

/-- Keys under which an operator mapping holds the mapping of one column. -/
inductive KeyOf (name : String) : Expr → Prop
  | named : KeyOf name (.named name)
  | identifier : Expr.named name = .identifier name → KeyOf name (.identifier name)
  | string : Expr.named name = .identifier name → KeyOf name (.value (.string name))

/-- Keys in an operator mapping that name several columns, and the names of these. -/
inductive NamesBelow (names : List String) : Expr → List String → Prop
  | named : separatesFirst names = true → NamesBelow names (.named (joined names)) (ownKeys names)
  | identifier : 2 ≤ names.length → NamesBelow names (.identifier (joined names)) names
  | string : 2 ≤ names.length → NamesBelow names (.value (.string (joined names))) names

/-! Cutting joined names. -/

namespace Text

theorem pieces_of_keep {isCut : Char → Bool} {text : List Char}
    (keep : ∀ c ∈ text, isCut c = false) : pieces isCut text = [text] := by
  induction text with
  | nil => rfl
  | cons c rest ih =>
    rw [List.forall_mem_cons] at keep
    simp [pieces_cons_keep keep.1, ih keep.2]

theorem pieces_append_cut {isCut : Char → Bool} {text : List Char}
    (keep : ∀ c ∈ text, isCut c = false) {c : Char} (cut : isCut c = true) (rest : List Char) :
    pieces isCut (text ++ c :: rest) = text :: pieces isCut rest := by
  induction text with
  | nil => exact pieces_cons_cut cut rest
  | cons d text ih =>
    rw [List.forall_mem_cons] at keep
    simp [pieces_cons_keep keep.1, ih keep.2]

end Text

theorem keep_of_not_mem {text : List Char} (free : ',' ∉ text) :
    ∀ c ∈ text, (c == ',') = false := by
  intro c member
  rw [beq_eq_false_iff_ne]
  rintro rfl
  exact free member

theorem splitNames_append {first : List Char} (free : ',' ∉ first) (rest : List Char) :
    splitNames (String.ofList (first ++ ',' :: rest)) =
      splitNames (String.ofList first) ++ splitNames (String.ofList rest) := by
  simp [splitNames, Text.pieces_append_cut (keep_of_not_mem free) (beq_self_eq_true ','),
    Text.pieces_of_keep (keep_of_not_mem free), List.filter_cons]
  split <;> simp

theorem IsName.splitNames_eq {name : String} (h : IsName name) : splitNames name = [name] := by
  have some : name.toList ≠ [] := by simpa using h.filled
  simp [splitNames, Text.pieces_of_keep (keep_of_not_mem h.noComma), h.trimmed, some]

theorem mem_of_mem_trim {text : List Char} {c : Char} (member : c ∈ Text.trim text) : c ∈ text := by
  simp only [Text.trim, Text.trimEnd, Text.trimStart, List.mem_reverse] at member
  exact List.dropWhile_subset _ (List.mem_reverse.mp (List.dropWhile_subset _ member))

theorem filled_of_mem_splitNames {name names : String} (member : name ∈ splitNames names) :
    name ≠ "" := by
  simp only [splitNames, List.mem_map, List.mem_filter] at member
  obtain ⟨piece, ⟨_, filled⟩, rfl⟩ := member
  simpa using filled

theorem free_of_mem_splitNames {text : List Char} (free : ',' ∉ text) {name : String}
    (member : name ∈ splitNames (String.ofList text)) : ',' ∉ name.toList := by
  simp only [splitNames, String.toList_ofList, Text.pieces_of_keep (keep_of_not_mem free),
    List.mem_map, List.mem_filter, List.mem_singleton] at member
  obtain ⟨_, ⟨⟨piece, rfl, rfl⟩, _⟩, rfl⟩ := member
  rw [String.toList_ofList]
  exact fun inside => free (mem_of_mem_trim inside)

theorem toList_joined_cons (first second : String) (rest : List String) :
    (joined (first :: second :: rest)).toList =
      first.toList ++ ',' :: (joined (second :: rest)).toList := by
  simp [joined, String.toList_intercalate]

theorem splitNames_joined {names : List String} (some : names ≠ [])
    (each : ∀ name ∈ names, IsName name) : splitNames (joined names) = names := by
  induction names with
  | nil => exact absurd rfl some
  | cons first rest ih =>
    rw [List.forall_mem_cons] at each
    cases rest with
    | nil => simpa [joined] using each.1.splitNames_eq
    | cons second rest =>
      have cut := splitNames_append each.1.noComma (joined (second :: rest)).toList
      rw [← toList_joined_cons] at cut
      simpa [each.1.splitNames_eq, ih (by simp) each.2] using cut

theorem cutAtSeparator_append {text table column : List Char}
    (found : cutAtSeparator text = some (table, column)) (rest : List Char) :
    cutAtSeparator (text ++ rest) = some (table, column ++ rest) := by
  fun_induction cutAtSeparator text generalizing table column with
  | case1 => cases found
  | case2 => cases found
  | case3 c d text here =>
    cases found
    simp [cutAtSeparator, here]
  | case4 c d text later ih =>
    simp only [Option.map_eq_some_iff, Prod.mk.injEq, Prod.exists] at found
    obtain ⟨start, _, found, rfl, rfl⟩ := found
    have below := ih found
    rw [List.cons_append] at below
    simp [cutAtSeparator, later, below]

theorem cutAtSeparator_table {text table column : List Char}
    (found : cutAtSeparator text = some (table, column)) (other : List Char) :
    cutAtSeparator (table ++ '_' :: '_' :: other) = some (table, other) := by
  fun_induction cutAtSeparator text generalizing table column with
  | case1 => cases found
  | case2 => cases found
  | case3 c d text here =>
    cases found
    simp [cutAtSeparator]
  | case4 c d text later ih =>
    simp only [Option.map_eq_some_iff, Prod.mk.injEq, Prod.exists] at found
    obtain ⟨start, _, found, rfl, rfl⟩ := found
    have below := ih found
    -- The table goes on as the text does, so no separator starts at its first character.
    have next := eq_append_of_cutAtSeparator found
    cases start with
    | nil =>
      have second : d = '_' := by simpa using congrArg List.head? next
      have first : c ≠ '_' := fun first => later ⟨first, second⟩
      simp [cutAtSeparator, first]
    | cons e start =>
      have second : d = e := by simpa using congrArg List.head? next
      subst second
      simp only [List.cons_append] at below ⊢
      simp [cutAtSeparator, later, below]

theorem free_of_cutAtSeparator {text table column : List Char}
    (found : cutAtSeparator text = some (table, column)) (free : ',' ∉ text) :
    ',' ∉ table ∧ ',' ∉ column := by
  rw [eq_append_of_cutAtSeparator found] at free
  simp only [List.mem_append, List.mem_cons, not_or] at free
  exact ⟨free.1, free.2.2.2⟩

/-! What the keys name. -/

namespace Expr

theorem named_of_cut {name : String} {table column : List Char}
    (found : cutAtSeparator name.toList = some (table, column)) :
    named name = if table = [] ∨ column = [] then identifier name
      else qualified (identifier (String.ofList table)) (identifier (String.ofList column)) := by
  simp [named, found]

theorem named_of_not_cut {name : String} (found : cutAtSeparator name.toList = none) :
    named name = identifier name := by
  simp [named, found]

theorem columns_identifier_of_single {name : String} (free : ',' ∉ name.toList) :
    (identifier name).columns = [identifier name] := by
  have single : isCompound name = false := by simpa [isCompound] using free
  simp [columns, single]

theorem columns_qualified_of_single (table : Expr) {name : String} (free : ',' ∉ name.toList) :
    (qualified table (identifier name)).columns = [qualified table (identifier name)] := by
  have single : isCompound name = false := by simpa [isCompound] using free
  simp [columns, single]

theorem columns_named {name : String} (free : ',' ∉ name.toList) :
    (named name).columns = [named name] := by
  cases found : cutAtSeparator name.toList with
  | none =>
    rw [named_of_not_cut found]
    exact columns_identifier_of_single free
  | some cut =>
    obtain ⟨table, column⟩ := cut
    rw [named_of_cut found]
    split
    · exact columns_identifier_of_single free
    · exact columns_qualified_of_single _ (by simpa using (free_of_cutAtSeparator found free).2)

theorem named_below {text table column : List Char}
    (found : cutAtSeparator text = some (table, column)) (filled_table : table ≠ []) {name : String}
    (filled : name ≠ "") :
    named (String.ofList table ++ "__" ++ name) =
      qualify (identifier (String.ofList table)) (identifier name) := by
  have cut : cutAtSeparator (String.ofList table ++ "__" ++ name).toList =
      some (table, name.toList) := by
    simpa using cutAtSeparator_table found name.toList
  rw [named_of_cut cut]
  simp [filled_table, filled, qualify, qualifierPart]

theorem isCompound_joined (first second : String) (rest : List String) :
    isCompound (joined (first :: second :: rest)) = true := by
  simp [isCompound, toList_joined_cons]

theorem columns_qualified_joined (table : Expr) {column : List Char} (free : ',' ∉ column)
    {names : List String} (some : names ≠ []) (each : ∀ name ∈ names, IsName name) :
    (qualified table (identifier (String.ofList (column ++ ',' :: (joined names).toList)))).columns =
      (splitNames (String.ofList column) ++ names).map fun name =>
        qualify table (identifier name) := by
  have parts := splitNames_append free (joined names).toList
  rw [String.ofList_toList, splitNames_joined some each] at parts
  rw [columns, if_pos (by simp [isCompound]), parts]

/-- The key has the columns of keys with one name each. -/
structure StandsFor (key : Expr) (names : List String) : Prop where
  some : names ≠ []
  single : ∀ name ∈ names, ',' ∉ name.toList
  columns : key.columns = names.map named

section Several

variable {first second : String} {rest : List String}
  (each : ∀ name ∈ first :: second :: rest, IsName name)

include each

theorem columns_identifier_joined :
    (identifier (joined (first :: second :: rest))).columns =
      (first :: second :: rest).map named := by
  rw [columns, if_pos (isCompound_joined first second rest), splitNames_joined (by simp) each]

theorem columns_string_joined :
    (value (.string (joined (first :: second :: rest)))).columns =
      (first :: second :: rest).map named := by
  rw [columns, if_pos (isCompound_joined first second rest), splitNames_joined (by simp) each]

theorem columns_named_below {table column : List Char}
    (found : cutAtSeparator first.toList = some (table, column)) (some : table ≠ []) :
    (named (joined (first :: second :: rest))).columns =
      (splitNames (String.ofList column) ++ second :: rest).map fun name =>
        named (String.ofList table ++ "__" ++ name) := by
  rw [List.forall_mem_cons] at each
  have free := (free_of_cutAtSeparator found each.1.noComma).2
  have all := cutAtSeparator_append found (',' :: (joined (second :: rest)).toList)
  rw [← toList_joined_cons] at all
  rw [named_of_cut all, if_neg (by simp [some]), columns_qualified_joined _ free (by simp) each.2]
  refine List.map_congr_left ?_
  intro name member
  refine (named_below found some ?_).symm
  rcases List.mem_append.mp member with split | given
  · exact filled_of_mem_splitNames split
  · exact (each.2 name given).filled

theorem columns_named_whole
    (whole : named (joined (first :: second :: rest)) =
      identifier (joined (first :: second :: rest))) :
    (named (joined (first :: second :: rest))).columns = (first :: second :: rest).map named := by
  rw [whole]
  exact columns_identifier_joined each

theorem standsFor_given {key : Expr} (columns : key.columns = (first :: second :: rest).map named) :
    StandsFor key (first :: second :: rest) where
  some := by simp
  single := fun name member => (each name member).noComma
  columns := columns

end Several

theorem free_of_mem_below {table column : List Char} (outer : ',' ∉ table) (inner : ',' ∉ column)
    {names : List String} (free : ∀ name ∈ names, ',' ∉ name.toList) :
    ∀ name ∈ (splitNames (String.ofList column) ++ names).map (String.ofList table ++ "__" ++ ·),
      ',' ∉ name.toList := by
  intro name member
  rw [List.mem_map] at member
  obtain ⟨below, inside, rfl⟩ := member
  have single : ',' ∉ below.toList := by
    rw [List.mem_append] at inside
    cases inside with
    | inl split => exact free_of_mem_splitNames inner split
    | inr given => exact free below given
  have separator : ',' ∉ "__".toList := by decide
  simp only [String.toList_append, String.toList_ofList, List.mem_append, not_or]
  exact ⟨⟨outer, separator⟩, single⟩

theorem standsFor_own {first second : String} {rest : List String}
    (each : ∀ name ∈ first :: second :: rest, IsName name)
    (early : separatesFirst (first :: second :: rest) = true) :
    StandsFor (named (joined (first :: second :: rest))) (ownKeys (first :: second :: rest)) := by
  have asGiven (whole : named (joined (first :: second :: rest)) =
      identifier (joined (first :: second :: rest))) :
      StandsFor (named (joined (first :: second :: rest))) (first :: second :: rest) :=
    standsFor_given each (columns_named_whole each whole)
  cases found : cutAtSeparator first.toList with
  | none =>
    -- A later separator ends the key, so there is no column behind it.
    simp only [ownKeys, found]
    refine asGiven ?_
    simp only [separatesFirst, found, Option.isSome_none, Bool.false_or] at early
    cases later : cutAtSeparator (joined (first :: second :: rest)).toList with
    | none => exact named_of_not_cut later
    | some cut =>
      rw [named_of_cut later, if_pos]
      simpa [later] using Or.inr early
  | some cut =>
    obtain ⟨table, column⟩ := cut
    simp only [ownKeys, found, List.isEmpty_iff]
    split
    · rename_i none
      have all := cutAtSeparator_append found (',' :: (joined (second :: rest)).toList)
      rw [← toList_joined_cons] at all
      exact asGiven (by rw [named_of_cut all, if_pos (.inl none)])
    · rename_i some
      obtain ⟨outer, inner⟩ := free_of_cutAtSeparator found (each first (by simp)).noComma
      refine ⟨by simp, ?_, ?_⟩
      · exact free_of_mem_below outer inner fun name member =>
          (each name (List.mem_cons_of_mem first member)).noComma
      · rw [columns_named_below each found some, List.map_map]
        rfl

end Expr

theorem standsFor_named {names : List String} (some : names ≠ [])
    (each : ∀ name ∈ names, IsName name) (early : separatesFirst names = true) :
    (Expr.named (joined names)).StandsFor (ownKeys names) := by
  match names, each with
  | [], _ => exact absurd rfl some
  | [name], each =>
    have single := (each name (by simp)).noComma
    exact ⟨by simp [ownKeys], by simpa [ownKeys] using single,
      by simpa [ownKeys, joined] using Expr.columns_named single⟩
  | first :: second :: rest, each => exact Expr.standsFor_own each early

theorem NamesBelow.standsFor {names own : List String} {key : Expr}
    (each : ∀ name ∈ names, IsName name) (some : names ≠ []) (below : NamesBelow names key own) :
    key.StandsFor own := by
  cases below with
  | named early => exact standsFor_named some each early
  | identifier several =>
    match names, each with
    | first :: second :: rest, each =>
      exact Expr.standsFor_given each (Expr.columns_identifier_joined each)
  | string several =>
    match names, each with
    | first :: second :: rest, each =>
      exact Expr.standsFor_given each (Expr.columns_string_joined each)

end SqlExpr
