import Mathlib.Data.List.Forall2
import SqlExpr.Text.Quoted

/-!
A reference scanner of SQL text. It knows quoted tokens, in which a doubled quote stands for a quote,
and passes over any other character. Texts put together from quoted tokens with other characters
between them are read token by token.
-/

namespace SqlExpr

/-- A character outside quotes, or a quoted token, of which the kind of quote is left. -/
inductive Lexeme where
  | plain (c : Char)
  | quoted (quote : Char)
  deriving DecidableEq, Repr

namespace Lexeme

def isQuote (c : Char) : Bool :=
  c == '\'' || c == '"'

/-- Outside quotes, inside a quoted token, or behind a quote in one that ends it unless another
follows. -/
inductive Place where
  | outside
  | inside (quote : Char)
  | behind (quote : Char)

def scan : Place → List Char → Option (List Lexeme)
  | .outside, [] => some []
  | .inside _, [] => none
  | .behind quote, [] => some [quoted quote]
  | .outside, c :: rest =>
    if isQuote c then scan (.inside c) rest else (scan .outside rest).map (plain c :: ·)
  | .inside quote, c :: rest =>
    if c = quote then scan (.behind quote) rest else scan (.inside quote) rest
  | .behind quote, c :: rest =>
    if c = quote then scan (.inside quote) rest
    else if isQuote c then (scan (.inside c) rest).map (quoted quote :: ·)
    else (scan .outside rest).map fun later => quoted quote :: plain c :: later

def ofText (text : String) : Option (List Lexeme) :=
  scan .outside text.toList

def Unquoted (text : List Char) : Prop :=
  ∀ c ∈ text, isQuote c = false

instance (text : List Char) : Decidable (Unquoted text) :=
  decidable_of_iff (text.all (!isQuote ·) = true) (by simp [Unquoted])

@[simp] theorem unquoted_nil : Unquoted [] := by
  simp [Unquoted]

@[simp] theorem unquoted_cons {c : Char} {text : List Char} :
    Unquoted (c :: text) ↔ isQuote c = false ∧ Unquoted text := by
  simp [Unquoted]

@[simp] theorem unquoted_append {first second : List Char} :
    Unquoted (first ++ second) ↔ Unquoted first ∧ Unquoted second := by
  simp [Unquoted, or_imp, forall_and]

theorem scan_plain {text : List Char} (free : Unquoted text) (after : List Char) :
    scan .outside (text ++ after) = (scan .outside after).map (text.map plain ++ ·) := by
  induction text with
  | nil => simp
  | cons c rest ih =>
    obtain ⟨first, later⟩ := unquoted_cons.mp free
    rw [List.cons_append, scan, first, ih later]
    simp [Function.comp_def]

theorem scan_behind {quote : Char} (isOne : isQuote quote = true) {after : List Char}
    (starts : ∀ c ∈ after.head?, isQuote c = false) :
    scan (.behind quote) after = (scan .outside after).map (quoted quote :: ·) := by
  cases after with
  | nil => rfl
  | cons c rest =>
    have free : isQuote c = false := starts c rfl
    have other : c ≠ quote := by
      rintro rfl
      rw [isOne] at free
      cases free
    simp [scan, free, other, Function.comp_def]

theorem scan_doubled {quote : Char} (isOne : isQuote quote = true) (content : List Char)
    {after : List Char} (starts : ∀ c ∈ after.head?, isQuote c = false) :
    scan (.inside quote) (Text.doubled quote content ++ quote :: after) =
      (scan .outside after).map (quoted quote :: ·) := by
  induction content with
  | nil => simp [Text.doubled, scan, scan_behind isOne starts]
  | cons c rest ih => by_cases same : c = quote <;> simp [Text.doubled, scan, same, ih]

end Lexeme

open Lexeme

def QuoteFree (text : String) : Prop :=
  Unquoted text.toList

instance (text : String) : Decidable (QuoteFree text) :=
  inferInstanceAs (Decidable (Unquoted text.toList))

theorem QuoteFree.append {first second : String} (h : QuoteFree first) (h' : QuoteFree second) :
    QuoteFree (first ++ second) := by
  rw [QuoteFree, String.toList_append, unquoted_append]
  exact ⟨h, h'⟩

def StartsPlain (text : String) : Prop :=
  ∀ c ∈ text.toList.head?, isQuote c = false

theorem QuoteFree.startsPlain {text : String} (free : QuoteFree text) : StartsPlain text :=
  fun c head => free c (List.mem_of_mem_head? head)

/-- The text is read as the lexemes, whatever follows that does not start with a quote. -/
def Reads (text : String) (lexemes : List Lexeme) : Prop :=
  ∀ after : List Char, (∀ c ∈ after.head?, isQuote c = false) →
    scan .outside (text.toList ++ after) = (scan .outside after).map (lexemes ++ ·)

namespace Reads

theorem ofText_eq {text : String} {lexemes : List Lexeme} (h : Reads text lexemes) :
    ofText text = some lexemes := by
  have whole := h [] (by simp)
  rw [List.append_nil] at whole
  rw [ofText, whole]
  simp [scan]

theorem plain {text : String} (free : QuoteFree text) : Reads text (text.toList.map .plain) :=
  fun after _ => scan_plain free after

theorem quoted {quote : Char} (isOne : isQuote quote = true) (content : String) :
    Reads (Text.quoted quote content) [.quoted quote] := by
  intro after starts
  simpa [Text.quoted, scan, isOne] using scan_doubled isOne content.toList starts

theorem plain_append {first second : String} {lexemes : List Lexeme} (free : QuoteFree first)
    (h : Reads second lexemes) :
    Reads (first ++ second) (first.toList.map .plain ++ lexemes) := by
  intro after starts
  rw [String.toList_append, List.append_assoc, scan_plain free, h after starts]
  simp [Function.comp_def]

theorem append {first second : String} {lexemes later : List Lexeme} (h : Reads first lexemes)
    (h' : Reads second later) (starts : StartsPlain second) :
    Reads (first ++ second) (lexemes ++ later) := by
  intro after follows
  have next : ∀ c ∈ (second.toList ++ after).head?, isQuote c = false := by
    cases text : second.toList with
    | nil => exact follows
    | cons c rest =>
      rw [StartsPlain, text] at starts
      exact starts
  rw [String.toList_append, List.append_assoc, h _ next, h' after follows]
  simp [Function.comp_def]

end Reads

def SameLexemes (first second : String) : Prop :=
  ∃ lexemes, Reads first lexemes ∧ Reads second lexemes

/-- Two texts that are read alike, and that may follow a quoted token. -/
def SameBehind (first second : String) : Prop :=
  SameLexemes first second ∧ StartsPlain first ∧ StartsPlain second

theorem SameLexemes.plain {text : String} (free : QuoteFree text) : SameLexemes text text :=
  ⟨_, .plain free, .plain free⟩

theorem SameBehind.plain {text : String} (free : QuoteFree text) : SameBehind text text :=
  ⟨.plain free, free.startsPlain, free.startsPlain⟩

namespace SameLexemes

variable {s s' t t' : String}

theorem quoted {quote : Char} (isOne : isQuote quote = true) (content content' : String) :
    SameLexemes (Text.quoted quote content) (Text.quoted quote content') :=
  ⟨_, .quoted isOne content, .quoted isOne content'⟩

theorem append (h : SameLexemes s s') (h' : SameBehind t t') :
    SameLexemes (s ++ t) (s' ++ t') := by
  obtain ⟨lexemes, first, second⟩ := h
  obtain ⟨⟨later, third, fourth⟩, starts, starts'⟩ := h'
  exact ⟨_, first.append third starts, second.append fourth starts'⟩

theorem before (h : SameLexemes s s') {text : String} (free : QuoteFree text) :
    SameLexemes (s ++ text) (s' ++ text) :=
  h.append (.plain free)

theorem after {text : String} (free : QuoteFree text) (h : SameLexemes t t') :
    SameLexemes (text ++ t) (text ++ t') := by
  obtain ⟨lexemes, first, second⟩ := h
  exact ⟨_, first.plain_append free, second.plain_append free⟩

end SameLexemes

namespace SameBehind

variable {s s' t t' : String}

theorem startsPlain_append {first second : String} (h : StartsPlain first)
    (h' : StartsPlain second) : StartsPlain (first ++ second) := by
  intro c head
  rw [String.toList_append] at head
  cases text : first.toList with
  | nil =>
    rw [text] at head
    exact h' c head
  | cons d rest =>
    rw [text] at head
    exact h c (by rw [text]; exact head)

theorem append (h : SameBehind s s') (h' : SameBehind t t') : SameBehind (s ++ t) (s' ++ t') :=
  ⟨h.1.append h', startsPlain_append h.2.1 h'.2.1, startsPlain_append h.2.2 h'.2.2⟩

theorem after {text : String} (free : QuoteFree text) (some : text ≠ "") (h : SameLexemes t t') :
    SameBehind (text ++ t) (text ++ t') := by
  have starts (behind : String) : StartsPlain (text ++ behind) := by
    intro c head
    rw [String.toList_append, List.head?_append_of_ne_nil _ (by simpa using some)] at head
    exact free.startsPlain c head
  exact ⟨h.after free, starts t, starts t'⟩

end SameBehind

theorem SameLexemes.between {s s' t t' separator : String} (h : SameLexemes s s')
    (free : QuoteFree separator) (some : separator ≠ "") (h' : SameLexemes t t') :
    SameLexemes (s ++ separator ++ t) (s' ++ separator ++ t') := by
  rw [String.append_assoc, String.append_assoc]
  exact h.append (.after free some h')

theorem SameLexemes.intercalate {separator : String} (free : QuoteFree separator)
    (some : separator ≠ "") {texts texts' : List String}
    (each : List.Forall₂ SameLexemes texts texts') :
    SameLexemes (separator.intercalate texts) (separator.intercalate texts') := by
  induction each with
  | nil =>
    rw [String.intercalate_nil]
    exact .plain (by decide)
  | cons head tail ih =>
    cases tail with
    | nil => simpa using head
    | cons =>
      rw [String.intercalate_cons_cons, String.intercalate_cons_cons]
      exact head.between free some ih

theorem SameBehind.join {texts texts' : List String}
    (each : List.Forall₂ SameBehind texts texts') :
    SameBehind (String.join texts) (String.join texts') := by
  induction each with
  | nil => exact .plain (by decide)
  | cons head tail ih =>
    rw [String.join_cons, String.join_cons]
    exact head.append ih

end SqlExpr
