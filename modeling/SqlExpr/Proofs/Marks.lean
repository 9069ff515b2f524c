import Mathlib.Data.List.Induction
import SqlExpr.Proofs.WritingEquations

/-!
Templates with marks. The question marks outside quotes cut a template into pieces, and its text has
the texts of the arguments between the pieces, as they are. Anything else than one argument for each
mark is a mismatch.
-/

namespace SqlExpr

namespace Template

/-- Each single quote opens a quoted text or closes one. -/
def endsQuoted (text : List Char) : Bool :=
  text.count '\'' % 2 == 1

/-- All marks in the text are quoted. -/
def Unmarked (text : List Char) : Prop :=
  ∀ before after, text = before ++ '?' :: after → endsQuoted before = true

/-- The pieces of a text between its marks outside quotes. As a mark ends one piece, the next one
starts outside quotes again. -/
structure CutAtMarks (text : List Char) (pieces : List (List Char)) : Prop where
  some : pieces ≠ []
  joined : ['?'].intercalate pieces = text
  outside : ∀ piece ∈ pieces.dropLast, endsQuoted piece = false
  unmarked : ∀ piece ∈ pieces, Unmarked piece

/-- The pieces with the texts between them. -/
def interleaved : List (List Char) → List String → List Char
  | piece :: pieces, text :: texts => piece ++ text.toList ++ interleaved pieces texts
  | pieces, _ => pieces.flatten

def inParentheses (parenthesize : Bool) (text : String) : String :=
  if parenthesize then "(" ++ text ++ ")" else text

theorem endsQuoted_concat (text : List Char) (c : Char) :
    endsQuoted (text ++ [c]) = quotedAfter (endsQuoted text) c := by
  unfold endsQuoted quotedAfter
  by_cases quote : c = '\''
  · subst quote
    rw [List.count_append, List.count_singleton_self, if_pos rfl]
    rcases Nat.mod_two_eq_zero_or_one (text.count '\'') with even | odd
    · have next : (text.count '\'' + 1) % 2 = 1 := by omega
      simp [even, next]
    · have next : (text.count '\'' + 1) % 2 = 0 := by omega
      simp [odd, next]
  · simp [List.count_append, quote]

namespace Unmarked

theorem of_append {text later : List Char} (h : Unmarked (text ++ later)) : Unmarked text := by
  rintro before after rfl
  exact h before (after ++ later) (by simp)

theorem concat {text : List Char} {c : Char} (h : Unmarked text)
    (last : c = '?' → endsQuoted text = true) : Unmarked (text ++ [c]) := by
  intro before after split
  rcases List.eq_nil_or_concat after with rfl | ⟨inner, d, rfl⟩
  · obtain ⟨rfl, same⟩ := List.append_inj' split rfl
    simp only [List.cons.injEq, and_true] at same
    exact last same
  · have whole : text ++ [c] = (before ++ '?' :: inner) ++ [d] := by simpa using split
    obtain ⟨rfl, _⟩ := List.append_inj' whole rfl
    exact h before inner rfl

end Unmarked

/-! Every text can be cut at its marks. -/

theorem unmarked_or_first_mark (text : List Char) : Unmarked text ∨
    ∃ piece rest, text = piece ++ '?' :: rest ∧ endsQuoted piece = false ∧ Unmarked piece := by
  induction text using List.reverseRecOn with
  | nil => exact .inl fun before after split => by simp at split
  | append_singleton text c ih =>
    rcases ih with free | ⟨piece, rest, rfl, outside, free⟩
    · by_cases marked : c = '?' ∧ endsQuoted text = false
      · obtain ⟨rfl, outside⟩ := marked
        exact .inr ⟨text, [], rfl, outside, free⟩
      · refine .inl (free.concat ?_)
        intro mark
        simpa [mark] using marked
    · exact .inr ⟨piece, rest ++ [c], by simp, outside, free⟩

theorem exists_cutAtMarks (text : List Char) : ∃ pieces, CutAtMarks text pieces := by
  rcases unmarked_or_first_mark text with free | ⟨piece, rest, split, outside, free⟩
  · exact ⟨[text], by simp, by simp, by simp, by simpa using free⟩
  · have shorter : rest.length < text.length := by
      rw [split, List.length_append, List.length_cons]
      omega
    obtain ⟨pieces, some, joined, outsides, frees⟩ := exists_cutAtMarks rest
    obtain ⟨second, others, rfl⟩ := List.exists_cons_of_ne_nil some
    refine ⟨piece :: second :: others, by simp, ?_, ?_, ?_⟩
    · rw [List.intercalate_cons_cons, joined, split]
      simp
    · rw [List.dropLast_cons_cons, List.forall_mem_cons]
      exact ⟨outside, outsides⟩
    · rw [List.forall_mem_cons]
      exact ⟨free, frees⟩
termination_by text.length

theorem CutAtMarks.tail {piece second : List Char} {others : List (List Char)} {text : List Char}
    (cut : CutAtMarks text (piece :: second :: others)) :
    text = piece ++ '?' :: ['?'].intercalate (second :: others) ∧ endsQuoted piece = false ∧
      CutAtMarks (['?'].intercalate (second :: others)) (second :: others) := by
  obtain ⟨_, joined, outsides, frees⟩ := cut
  rw [List.dropLast_cons_cons, List.forall_mem_cons] at outsides
  rw [List.forall_mem_cons] at frees
  refine ⟨?_, outsides.1, by simp, rfl, outsides.2, frees.2⟩
  rw [← joined, List.intercalate_cons_cons]
  simp

/-! The parts of a template are those of its pieces, with a hole between each two. -/

def partsOfPieces : List (List Char) → List (Part Unit)
  | [] => []
  | [piece] => piece.map .text
  | piece :: pieces => piece.map .text ++ .hole () :: partsOfPieces pieces

theorem marked_append {piece : List Char} (free : Unmarked piece) (rest : List Char) :
    marked false (piece ++ rest) = piece.map .text ++ marked (endsQuoted piece) rest := by
  induction piece using List.reverseRecOn generalizing rest with
  | nil => rfl
  | append_singleton piece c ih =>
    have kept : ¬(c = '?' ∧ !endsQuoted piece) := by
      rintro ⟨rfl, outside⟩
      have quoted := free piece [] rfl
      rw [quoted] at outside
      cases outside
    rw [List.append_assoc, ih free.of_append, List.singleton_append, marked, if_neg kept,
      endsQuoted_concat, List.map_append, List.append_assoc]
    rfl

theorem marked_of_cut {text : List Char} {pieces : List (List Char)}
    (cut : CutAtMarks text pieces) : marked false text = partsOfPieces pieces := by
  induction pieces generalizing text with
  | nil => exact absurd rfl cut.some
  | cons piece pieces ih =>
    have free : Unmarked piece := cut.unmarked piece (by simp)
    cases pieces with
    | nil =>
      obtain rfl : piece = text := by simpa using cut.joined
      simpa [marked, partsOfPieces] using marked_append free []
    | cons second others =>
      obtain ⟨rfl, outside, rest⟩ := cut.tail
      rw [marked_append free, outside, marked, if_pos (by simp), partsOfPieces, ← ih rest]
      · rfl
      · simp

/-! Filling the holes between the pieces. -/

section Filling

variable (template : String)

theorem fillMarks_text (piece : List Char) (parts : List (Part Unit))
    (args : List (Except Error String)) :
    fillMarks template (piece.map .text ++ parts) args =
      (piece ++ ·) <$> fillMarks template parts args := by
  induction piece with
  | nil => simp
  | cons c piece ih => simp [fillMarks, ih]

theorem fillMarks_piece (piece : List Char) (args : List (Except Error String)) :
    fillMarks template (partsOfPieces [piece]) args =
      if args = [] then .ok piece
      else .error (.placeholderMismatch template (.unusedArguments args.length)) := by
  have whole := fillMarks_text template piece [] args
  rw [List.append_nil] at whole
  rw [partsOfPieces, whole]
  cases args with
  | nil => simp [fillMarks]
  | cons arg args => simp [fillMarks]

theorem fillMarks_pieces_nil (piece second : List Char) (others : List (List Char)) :
    fillMarks template (partsOfPieces (piece :: second :: others)) [] =
      .error (.placeholderMismatch template .tooFewArguments) := by
  rw [partsOfPieces, fillMarks_text, fillMarks]
  · rfl
  · simp

theorem fillMarks_pieces_cons (piece second : List Char) (others : List (List Char))
    (arg : Except Error String) (args : List (Except Error String)) :
    fillMarks template (partsOfPieces (piece :: second :: others)) (arg :: args) = (do
      let text ← arg
      let rest ← fillMarks template (partsOfPieces (second :: others)) args
      return piece ++ text.toList ++ rest) := by
  rw [partsOfPieces, fillMarks_text, fillMarks]
  · simp
  · simp

variable {template} {pieces : List (List Char)} (some : pieces ≠ [])
  {args : List (Except Error String)}

include some

theorem fillMarks_eq_ok_iff {filled : List Char} :
    fillMarks template (partsOfPieces pieces) args = .ok filled ↔
      args.length + 1 = pieces.length ∧
        ∃ texts, args.mapM id = .ok texts ∧ filled = interleaved pieces texts := by
  induction pieces generalizing args filled with
  | nil => exact absurd rfl some
  | cons piece pieces ih =>
    cases pieces with
    | nil =>
      rw [fillMarks_piece]
      cases args with
      | nil =>
        constructor
        · rintro ⟨⟩
          exact ⟨rfl, [], rfl, by simp [interleaved]⟩
        · rintro ⟨_, _, ⟨⟩, rfl⟩
          simp [interleaved]
      | cons arg args => simp
    | cons second others =>
      cases args with
      | nil =>
        rw [fillMarks_pieces_nil]
        simp
      | cons arg args =>
        rw [fillMarks_pieces_cons]
        simp only [bind_eq_ok_iff, pure_eq_ok_iff, ih (by simp), List.mapM_cons, id,
          List.length_cons]
        constructor
        · rintro ⟨text, rfl, _, ⟨count, texts, each, rfl⟩, rfl⟩
          exact ⟨by omega, text :: texts, ⟨text, rfl, texts, each, rfl⟩, rfl⟩
        · rintro ⟨count, _, ⟨text, rfl, texts, each, rfl⟩, rfl⟩
          exact ⟨text, rfl, _, ⟨by omega, texts, each, rfl⟩, rfl⟩

variable (template) in
theorem fillMarks_eq_mismatch (differs : args.length + 1 ≠ pieces.length)
    (fine : ∀ arg ∈ args.take (pieces.length - 1), ∃ text, arg = .ok text) :
    ∃ mismatch, fillMarks template (partsOfPieces pieces) args =
      .error (.placeholderMismatch template mismatch) := by
  induction pieces generalizing args with
  | nil => exact absurd rfl some
  | cons piece pieces ih =>
    cases pieces with
    | nil =>
      have unused : args ≠ [] := by
        rintro rfl
        exact differs rfl
      exact ⟨_, by rw [fillMarks_piece, if_neg unused]⟩
    | cons second others =>
      cases args with
      | nil => exact ⟨_, fillMarks_pieces_nil template piece second others⟩
      | cons arg args =>
        simp only [List.length_cons, Nat.add_sub_cancel, List.take_succ_cons,
          List.forall_mem_cons] at fine differs
        obtain ⟨⟨text, rfl⟩, later⟩ := fine
        have shorter : args.length + 1 ≠ (second :: others).length := by
          rw [List.length_cons]
          omega
        obtain ⟨mismatch, failed⟩ := ih (by simp) shorter later
        exact ⟨mismatch, by rw [fillMarks_pieces_cons, failed]; rfl⟩

end Filling

end Template

open Template

namespace Expr

theorem sql_positional (dialect : Dialect) (template : String) (args : List Expr)
    (parenthesize : Bool) :
    (placeholder template (.positional args) parenthesize).sql dialect =
      (fun filled => inParentheses parenthesize (String.ofList filled)) <$>
        fillMarks template (marked false template.toList) (args.map (·.sql dialect)) := by
  have written : Rendering.texts (.full dialect) args = args.map (·.sql dialect) := by
    rw [Rendering.texts_eq_map]
    exact List.map_congr_left fun arg _ => (sql_eq_full dialect arg).symm
  rw [sql_eq_full, Rendering.write, Rendering.filled, written, withMarks]
  simp only [bind_pure_comp, Functor.map_map]
  rfl

/-- The pieces of a template between its marks stay as they are. Between them are the texts of the
arguments, if there is one argument for each mark and all have a text; another number of arguments is
a mismatch, unless an argument has no text before that shows. -/
theorem sql_positional_iff (dialect : Dialect) (template : String) (args : List Expr)
    (parenthesize : Bool) :
    (∃ pieces, CutAtMarks template.toList pieces) ∧
      ∀ pieces, CutAtMarks template.toList pieces →
        (∀ text, (placeholder template (.positional args) parenthesize).sql dialect = .ok text ↔
          args.length + 1 = pieces.length ∧ ∃ texts, args.mapM (·.sql dialect) = .ok texts ∧
            text = inParentheses parenthesize (String.ofList (interleaved pieces texts))) ∧
        (args.length + 1 ≠ pieces.length →
          (∀ arg ∈ args.take (pieces.length - 1), ∃ text, arg.sql dialect = .ok text) →
          ∃ mismatch, (placeholder template (.positional args) parenthesize).sql dialect =
            .error (.placeholderMismatch template mismatch)) := by
  refine ⟨exists_cutAtMarks template.toList, fun pieces cut => ⟨fun text => ?_, ?_⟩⟩
  · rw [sql_positional, marked_of_cut cut]
    simp only [map_eq_ok_iff, fillMarks_eq_ok_iff cut.some, List.length_map, List.mapM_map]
    constructor
    · rintro ⟨_, ⟨count, texts, each, rfl⟩, rfl⟩
      exact ⟨count, texts, each, rfl⟩
    · rintro ⟨count, texts, each, rfl⟩
      exact ⟨_, ⟨count, texts, each, rfl⟩, rfl⟩
  · intro differs fine
    have fine' : ∀ arg ∈ (args.map (·.sql dialect)).take (pieces.length - 1),
        ∃ text, arg = .ok text := by
      rw [← List.map_take, List.forall_mem_map]
      exact fine
    obtain ⟨mismatch, failed⟩ := fillMarks_eq_mismatch template cut.some
      (by simpa using differs) fine'
    refine ⟨mismatch, ?_⟩
    rw [sql_positional, marked_of_cut cut, failed]
    rfl

theorem cutAtMarks_quotedMark : CutAtMarks "?'?'?".toList [[], ['\'', '?', '\''], []] := by
  have none : Unmarked [] := fun before after split => by simp at split
  have quoted : Unmarked ['\'', '?', '\''] :=
    ((none.concat (by decide)).concat (by decide)).concat (by decide)
  exact ⟨by simp, rfl, by decide, by simp [none, quoted]⟩

/-- A text that is itself a mark is put in for one and stays; a third argument is too many. -/
theorem sql_positional_iff_quotedMark (dialect : Dialect) :
    (placeholder "?'?'?" (.positional [.literal "?", .literal "b"]) true).sql dialect =
        .ok "(?'?'b)" ∧
      ∃ mismatch, (placeholder "?'?'?"
        (.positional [.literal "?", .literal "b", .literal "c"]) true).sql dialect =
          .error (.placeholderMismatch "?'?'?" mismatch) := by
  have written (text : String) : (literal text).sql dialect = .ok text := by
    simp [sql_eq_full, Rendering.write]
  constructor
  · refine (((sql_positional_iff dialect _ _ true).2 _ cutAtMarks_quotedMark).1 _).mpr ⟨rfl, ?_⟩
    exact ⟨["?", "b"], by simp [written], by decide⟩
  · refine ((sql_positional_iff dialect _ _ true).2 _ cutAtMarks_quotedMark).2 (by decide) ?_
    simp [written]

end Expr

end SqlExpr
