/-!
Blank characters, those that Unicode gives the property White_Space, and cutting text at chosen
characters. Text is handled as its list of characters.
-/

namespace SqlExpr.Text

def blankRanges : List (Nat × Nat) :=
  [(0x09, 0x0D), (0x20, 0x20), (0x85, 0x85), (0xA0, 0xA0), (0x1680, 0x1680), (0x2000, 0x200A),
   (0x2028, 0x2029), (0x202F, 0x202F), (0x205F, 0x205F), (0x3000, 0x3000)]

def isBlank (c : Char) : Bool :=
  blankRanges.any fun (low, high) => low ≤ c.toNat && c.toNat ≤ high

theorem isBlank_of_isWhitespace (c : Char) (h : c.isWhitespace = true) : isBlank c = true := by
  simp only [Char.isWhitespace, Bool.or_eq_true, decide_eq_true_eq] at h
  rcases h with ((rfl | rfl) | rfl) | rfl <;> decide

example : (blankRanges.map fun (low, high) => high - low + 1).sum = 25 := by decide

def trimStart (text : List Char) : List Char :=
  text.dropWhile isBlank

def trimEnd (text : List Char) : List Char :=
  (text.reverse.dropWhile isBlank).reverse

def trim (text : List Char) : List Char :=
  trimEnd (trimStart text)

/-- The pieces between the characters that are cut out; there is always a first one. -/
def pieces (isCut : Char → Bool) (text : List Char) : List (List Char) :=
  let (first, others) := text.foldr (fun c (first, others) =>
    if isCut c then ([], first :: others) else (c :: first, others)) ([], [])
  first :: others

/-- The pieces between blanks that hold a character. -/
def words (text : List Char) : List (List Char) :=
  (pieces isBlank text).filter (!·.isEmpty)

@[simp] theorem pieces_nil (isCut : Char → Bool) : pieces isCut [] = [[]] := rfl

theorem pieces_ne_nil (isCut : Char → Bool) (text : List Char) : pieces isCut text ≠ [] := by
  simp [pieces]

theorem pieces_cons_cut {isCut : Char → Bool} {c : Char} (h : isCut c = true) (text : List Char) :
    pieces isCut (c :: text) = [] :: pieces isCut text := by
  simp [pieces, h]

theorem pieces_cons_keep {isCut : Char → Bool} {c : Char} (h : isCut c = false)
    (text : List Char) :
    pieces isCut (c :: text) =
      (c :: (pieces isCut text).head (pieces_ne_nil isCut text)) :: (pieces isCut text).tail := by
  simp [pieces, h]

end SqlExpr.Text
