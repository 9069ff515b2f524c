/-!
Quoted text: between two quote characters, each quote of the content is written twice.
-/

namespace SqlExpr.Text

/-- The content with each quote written twice. -/
def doubled (quote : Char) : List Char → List Char
  | [] => []
  | c :: rest => if c = quote then quote :: quote :: doubled quote rest else c :: doubled quote rest

def quoted (quote : Char) (content : String) : String :=
  String.ofList (quote :: (doubled quote content.toList ++ [quote]))

/-- Reads on from just after an opening quote, up to the first quote that stands alone: the content
and the text behind the closing quote. -/
def readQuoted (quote : Char) : List Char → Option (List Char × List Char)
  | [] => none
  | [c] => if c = quote then some ([], []) else none
  | c :: d :: rest =>
    if c = quote then
      if d = quote then
        (readQuoted quote rest).map fun (content, after) => (quote :: content, after)
      else some ([], d :: rest)
    else (readQuoted quote (d :: rest)).map fun (content, after) => (c :: content, after)

theorem doubled_append (quote : Char) (first second : List Char) :
    doubled quote (first ++ second) = doubled quote first ++ doubled quote second := by
  induction first with
  | nil => rfl
  | cons c rest ih => by_cases h : c = quote <;> simp [doubled, h, ih]

/-- Quoted text reads back, whatever follows it but another quote. -/
theorem readQuoted_doubled (quote : Char) (content after : List Char)
    (h : after.head? ≠ some quote) :
    readQuoted quote (doubled quote content ++ quote :: after) = some (content, after) := by
  induction content with
  | nil =>
    cases after with
    | nil => simp [doubled, readQuoted]
    | cons c after =>
      have other : c ≠ quote := by simpa using h
      simp [doubled, readQuoted, other]
  | cons c rest ih =>
    by_cases hc : c = quote
    · simp [doubled, hc, readQuoted, ih]
    · cases text : doubled quote rest ++ quote :: after with
      | nil => simp at text
      | cons d behind =>
        rw [text] at ih
        simp [doubled, hc, text, readQuoted, ih]

end SqlExpr.Text
