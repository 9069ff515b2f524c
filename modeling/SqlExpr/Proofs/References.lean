import Mathlib.Data.List.Nodup
import Mathlib.Data.List.TakeWhile
import Mathlib.Tactic.Choose
import SqlExpr.Proofs.Marks

/-!
Templates with references. A template is scanned from left to right into characters, pairs of colons
and references, and its text has the texts of the arguments in place of the references. The arguments
have to be named apart, and exactly those that are referred to have to be there.
-/

namespace SqlExpr

namespace Template

inductive Token where
  | char (c : Char)
  | pair
  | reference (name : String)

namespace Token

def parts : Token → List (Part String)
  | char c => [.text c]
  | pair => [.text ':', .text ':']
  | reference name => [.hole name]

/-- The text of a token when each name stands for a text. -/
def filled (texts : String → String) : Token → List Char
  | char c => [c]
  | pair => [':', ':']
  | reference name => (texts name).toList

end Token

/-- The tokens of a text that begins inside quotes or outside. A name is as long as it can be. -/
inductive Scanned : Bool → List Char → List Token → Prop
  | done {quoted} : Scanned quoted [] []
  | char {quoted c rest tokens} : quoted = true ∨ c ≠ ':' →
      Scanned (quotedAfter quoted c) rest tokens → Scanned quoted (c :: rest) (.char c :: tokens)
  | pair {rest tokens} : Scanned false rest tokens →
      Scanned false (':' :: ':' :: rest) (.pair :: tokens)
  | reference {name : String} {rest tokens} : (∃ c ∈ name.toList.head?, startsName c) →
      (∀ c ∈ name.toList, continuesName c) → (∀ c ∈ rest.head?, continuesName c = false) →
      Scanned false rest tokens →
      Scanned false (':' :: (name.toList ++ rest)) (.reference name :: tokens)
  | colon {rest tokens} : (∀ c ∈ rest.head?, c ≠ ':' ∧ startsName c = false) →
      Scanned false rest tokens → Scanned false (':' :: rest) (.char ':' :: tokens)

/-! Every text can be scanned. -/

theorem continuesName_of_startsName {c : Char} (starts : startsName c = true) :
    continuesName c = true := by
  simp only [startsName, continuesName, Char.isAlphanum, Bool.or_eq_true] at starts ⊢
  exact starts.imp_left .inl

theorem exists_name {c : Char} (starts : startsName c = true) (rest : List Char) :
    ∃ (name : String) (later : List Char), c :: rest = name.toList ++ later ∧
      (∃ d ∈ name.toList.head?, startsName d) ∧ (∀ d ∈ name.toList, continuesName d) ∧
      ∀ d ∈ later.head?, continuesName d = false := by
  have first := continuesName_of_startsName starts
  refine ⟨String.ofList ((c :: rest).takeWhile continuesName), (c :: rest).dropWhile continuesName,
    ?_, ?_, ?_, ?_⟩
  · rw [String.toList_ofList, List.takeWhile_append_dropWhile]
  · rw [String.toList_ofList, List.takeWhile_cons_of_pos first]
    exact ⟨c, rfl, starts⟩
  · rw [String.toList_ofList]
    exact fun d => List.mem_takeWhile_imp
  · intro d here
    have stopped := List.head?_dropWhile_not continuesName (c :: rest)
    rwa [Option.mem_def.mp here] at stopped

theorem exists_scanned (quoted : Bool) (text : List Char) :
    ∃ tokens, Scanned quoted text tokens := by
  match text with
  | [] => exact ⟨[], .done⟩
  | c :: rest =>
    by_cases plain : quoted = true ∨ c ≠ ':'
    · obtain ⟨tokens, scanned⟩ := exists_scanned (quotedAfter quoted c) rest
      exact ⟨_, .char plain scanned⟩
    · simp only [not_or, Bool.not_eq_true, not_not] at plain
      obtain ⟨rfl, rfl⟩ := plain
      match rest with
      | [] => exact ⟨_, .colon (by simp) .done⟩
      | d :: after =>
        by_cases colon : d = ':'
        · subst colon
          obtain ⟨tokens, scanned⟩ := exists_scanned false after
          exact ⟨_, .pair scanned⟩
        · cases starts : startsName d with
          | true =>
            obtain ⟨name, later, split, begins, inner, ends⟩ := exists_name starts after
            have shorter : later.length ≤ (d :: after).length := by
              rw [split, List.length_append]
              omega
            obtain ⟨tokens, scanned⟩ := exists_scanned false later
            rw [split]
            exact ⟨_, .reference begins inner ends scanned⟩
          | false =>
            obtain ⟨tokens, scanned⟩ := exists_scanned false (d :: after)
            exact ⟨_, .colon (by simpa using ⟨colon, starts⟩) scanned⟩
termination_by text.length
decreasing_by all_goals grind

/-! The parts of a template are those of its tokens. -/

theorem referenced_char {quoted : Bool} {c : Char} (plain : quoted = true ∨ c ≠ ':')
    (rest : List Char) :
    referenced quoted 0 (c :: rest) = .text c :: referenced (quotedAfter quoted c) 0 rest := by
  have kept : ¬(c = ':' ∧ !quoted) := by
    rintro ⟨rfl, outside⟩
    simp_all
  rw [referenced.eq_def]
  exact if_neg kept

theorem referenced_colon {rest : List Char}
    (other : ∀ c ∈ rest.head?, c ≠ ':' ∧ startsName c = false) :
    referenced false 0 (':' :: rest) = .text ':' :: referenced false 0 rest := by
  cases rest with
  | nil => rfl
  | cons c rest =>
    obtain ⟨noColon, noName⟩ := other c rfl
    rw [referenced, if_pos (by simp), if_neg noColon, if_neg (by simp [noName])]

theorem referenced_skip (quoted : Bool) (read rest : List Char) :
    referenced quoted read.length (read ++ rest) = referenced quoted 0 rest := by
  induction read with
  | nil => rfl
  | cons c read ih => exact ih

theorem takeWhile_name {name rest : List Char} (inner : ∀ c ∈ name, continuesName c = true)
    (ends : ∀ c ∈ rest.head?, continuesName c = false) :
    (name ++ rest).takeWhile continuesName = name := by
  rw [List.takeWhile_append_of_pos inner]
  cases rest with
  | nil => simp
  | cons c rest => simp [ends c rfl]

theorem referenced_name {name rest : List Char} (begins : ∃ c ∈ name.head?, startsName c)
    (inner : ∀ c ∈ name, continuesName c = true)
    (ends : ∀ c ∈ rest.head?, continuesName c = false) :
    referenced false 0 (':' :: (name ++ rest)) =
      .hole (String.ofList name) :: referenced false 0 rest := by
  have longest := takeWhile_name inner ends
  have skipped := referenced_skip false name rest
  cases name with
  | nil => simp at begins
  | cons c name =>
    have starts : startsName c = true := by simpa using begins
    have noColon : c ≠ ':' := by
      rintro rfl
      exact absurd starts (by decide)
    rw [List.cons_append] at longest skipped ⊢
    rw [referenced, if_pos (by simp), if_neg noColon, if_pos starts, longest]
    exact congrArg _ skipped

theorem referenced_of_scanned {quoted : Bool} {text : List Char} {tokens : List Token}
    (scanned : Scanned quoted text tokens) :
    referenced quoted 0 text = tokens.flatMap Token.parts := by
  induction scanned with
  | done => rfl
  | char plain _ ih =>
    rw [referenced_char plain, ih]
    rfl
  | @pair rest tokens _ ih =>
    rw [List.flatMap_cons, ← ih]
    rfl
  | reference begins inner ends _ ih =>
    rw [referenced_name begins inner ends, ih, String.ofList_toList]
    rfl
  | colon other _ ih =>
    rw [referenced_colon other, ih]
    rfl

theorem mem_holeNames_iff {name : String} {tokens : List Token} :
    name ∈ holeNames (tokens.flatMap Token.parts) ↔ .reference name ∈ tokens := by
  rw [holeNames, List.mem_filterMap]
  constructor
  · rintro ⟨part, member, named⟩
    obtain ⟨token, inside, here⟩ := List.mem_flatMap.mp member
    cases token with
    | char | pair =>
      simp only [Token.parts, List.mem_cons, List.not_mem_nil, or_false, or_self] at here
      subst here
      cases named
    | reference other =>
      obtain rfl := List.mem_singleton.mp here
      cases named
      exact inside
  · intro inside
    exact ⟨.hole name, List.mem_flatMap.mpr ⟨_, inside, List.mem_singleton.mpr rfl⟩, rfl⟩

/-! Filling the references. -/

section Filling

variable {template : String} {args : List (String × Except Error String)}

theorem fillReferences_append (first second : List (Part String)) :
    fillReferences template args (first ++ second) = (do
      let start ← fillReferences template args first
      let rest ← fillReferences template args second
      return start ++ rest) := by
  induction first with
  | nil => exact (id_map _).symm
  | cons part first ih =>
    rw [List.cons_append]
    cases part with
    | text c =>
      rw [fillReferences, fillReferences, ih]
      simp only [bind_assoc, pure_bind, List.cons_append]
    | hole name =>
      rw [fillReferences, fillReferences, ih]
      simp only [bind_assoc, pure_bind, List.append_assoc]

theorem lookup_of_fillReferences_eq_ok {tokens : List Token} {text : List Char}
    (fills : fillReferences template args (tokens.flatMap Token.parts) = .ok text) {name : String}
    (inside : .reference name ∈ tokens) : ∃ own, args.lookup name = some (.ok own) := by
  obtain ⟨before, after, rfl⟩ := List.append_of_mem inside
  rw [List.flatMap_append, List.flatMap_cons] at fills
  simp only [fillReferences_append, Token.parts, fillReferences, bind_eq_ok_iff] at fills
  obtain ⟨_, _, _, ⟨_, ⟨own, here, _⟩, _⟩, _⟩ := fills
  cases known : args.lookup name with
  | none => simp [known] at here
  | some own =>
    rw [known] at here
    exact ⟨_, congrArg some here⟩

theorem fillReferences_eq_filled {texts : String → String} {tokens : List Token}
    (known : ∀ name, .reference name ∈ tokens → args.lookup name = some (.ok (texts name))) :
    fillReferences template args (tokens.flatMap Token.parts) =
      .ok (tokens.flatMap (Token.filled texts)) := by
  induction tokens with
  | nil => rfl
  | cons token tokens ih =>
    have first : fillReferences template args token.parts = .ok (token.filled texts) := by
      cases token with
      | char | pair => rfl
      | reference name =>
        simp [Token.parts, Token.filled, fillReferences, known name (by simp)]
    rw [List.flatMap_cons, fillReferences_append, first,
      ih fun name inside => known name (List.mem_cons_of_mem _ inside)]
    rfl

theorem fillReferences_eq_ok_iff {tokens : List Token} {text : List Char} :
    fillReferences template args (tokens.flatMap Token.parts) = .ok text ↔
      ∃ texts : String → String,
        (∀ name, .reference name ∈ tokens → args.lookup name = some (.ok (texts name))) ∧
          text = tokens.flatMap (Token.filled texts) := by
  constructor
  · intro fills
    have known : ∀ name, .reference name ∈ tokens → ∃ own, args.lookup name = some (.ok own) :=
      fun name => lookup_of_fillReferences_eq_ok fills
    choose! texts known using known
    rw [fillReferences_eq_filled known] at fills
    cases fills
    exact ⟨texts, known, rfl⟩
  · rintro ⟨texts, known, rfl⟩
    exact fillReferences_eq_filled known

theorem unusedNames_eq_nil_iff {used seen names : List String} :
    unusedNames used seen names = [] ↔
      names.Nodup ∧ ∀ name ∈ names, name ∈ used ∧ name ∉ seen := by
  induction names generalizing seen with
  | nil => simp [unusedNames]
  | cons name names ih =>
    rw [unusedNames, List.nodup_cons, List.forall_mem_cons]
    split_ifs with uses
    · have own : name ∈ used ∧ name ∉ seen := by simpa using uses
      rw [ih]
      constructor
      · rintro ⟨apart, later⟩
        refine ⟨⟨fun again => (later name again).2 (by simp), apart⟩, own, fun other member => ?_⟩
        exact ⟨(later other member).1, fun early => (later other member).2 (by simp [early])⟩
      · rintro ⟨⟨new, apart⟩, _, later⟩
        refine ⟨apart, fun other member => ⟨(later other member).1, fun early => ?_⟩⟩
        rcases List.mem_cons.mp early with rfl | early
        · exact new member
        · exact (later other member).2 early
    · have own : ¬(name ∈ used ∧ name ∉ seen) := by simpa using uses
      simp [own]

theorem lookup_of_texts {texts : String → String}
    (each : ∀ arg ∈ args, arg.2 = .ok (texts arg.1)) {name : String}
    (named : name ∈ args.map (·.1)) : args.lookup name = some (.ok (texts name)) := by
  obtain ⟨arg, member, rfl⟩ := List.mem_map.mp named
  obtain ⟨found, known⟩ : ∃ found, args.lookup arg.1 = some found :=
    Option.isSome_iff_exists.mp (List.lookup_isSome_iff.mpr ⟨arg, member, by simp⟩)
  obtain ⟨_, _, rfl, _⟩ := List.lookup_eq_some_iff.mp known
  have own : found = .ok (texts arg.1) := each (arg.1, found) (by simp)
  rw [known, own]

theorem eq_of_lookup {name : String} {text found : Except Error String}
    (apart : (args.map (·.1)).Nodup) (member : (name, text) ∈ args)
    (known : args.lookup name = some found) : text = found := by
  obtain ⟨before, after, rfl, _⟩ := List.lookup_eq_some_iff.mp known
  have first : (name, found) ∈ before ++ (name, found) :: after := by simp
  exact congrArg Prod.snd (List.inj_on_of_nodup_map apart member first rfl)

theorem withReferences_eq_ok_iff_filled {tokens : List Token}
    (scanned : Scanned false template.toList tokens) {text : String} :
    withReferences template args = .ok text ↔
      (args.map (·.1)).Nodup ∧ (∀ name ∈ args.map (·.1), .reference name ∈ tokens) ∧
        ∃ filled, fillReferences template args (tokens.flatMap Token.parts) = .ok filled ∧
          text = String.ofList filled := by
  have nothing : unusedNames (holeNames (tokens.flatMap Token.parts)) [] (args.map (·.1)) = [] ↔
      (args.map (·.1)).Nodup ∧ ∀ name ∈ args.map (·.1), .reference name ∈ tokens := by
    simp only [unusedNames_eq_nil_iff, mem_holeNames_iff, List.not_mem_nil, not_false_eq_true,
      and_true]
  rw [withReferences, referenced_of_scanned scanned, bind_eq_ok_iff, ← and_assoc, ← nothing]
  constructor
  · rintro ⟨filled, fills, done⟩
    split at done
    · next unused =>
      cases done
      exact ⟨unused, filled, fills, rfl⟩
    · cases done
  · rintro ⟨unused, filled, fills, rfl⟩
    exact ⟨filled, fills, by rw [unused]; rfl⟩

theorem withReferences_eq_ok_iff {tokens : List Token}
    (scanned : Scanned false template.toList tokens) {text : String} :
    withReferences template args = .ok text ↔
      (args.map (·.1)).Nodup ∧ (∀ name, .reference name ∈ tokens ↔ name ∈ args.map (·.1)) ∧
        ∃ texts : String → String, (∀ arg ∈ args, arg.2 = .ok (texts arg.1)) ∧
          text = String.ofList (tokens.flatMap (Token.filled texts)) := by
  simp only [withReferences_eq_ok_iff_filled scanned, fillReferences_eq_ok_iff]
  constructor
  · rintro ⟨apart, uses, _, ⟨texts, known, rfl⟩, rfl⟩
    refine ⟨apart, fun name => ⟨fun inside => ?_, uses name⟩, texts, fun arg member => ?_, rfl⟩
    · obtain ⟨_, _, rfl, _⟩ := List.lookup_eq_some_iff.mp (known name inside)
      simp
    · exact eq_of_lookup apart member (known _ (uses _ (List.mem_map_of_mem member)))
  · rintro ⟨apart, same, texts, each, rfl⟩
    refine ⟨apart, fun name named => (same name).mpr named, _, ⟨texts, ?_, rfl⟩, rfl⟩
    exact fun name inside => lookup_of_texts each ((same name).mp inside)

end Filling

end Template

open Template

namespace Expr

theorem sql_named (dialect : Dialect) (template : String) (args : List (String × Expr))
    (parenthesize : Bool) :
    (placeholder template (.named args) parenthesize).sql dialect =
      inParentheses parenthesize <$>
        withReferences template (args.map fun (name, e) => (name, e.sql dialect)) := by
  have written : Rendering.namedTexts (.full dialect) args =
      args.map fun (name, e) => (name, e.sql dialect) := by
    rw [Rendering.namedTexts_eq_map]
    exact List.map_congr_left fun arg _ => by simp only [← sql_eq_full]
  rw [sql_eq_full, Rendering.write, Rendering.filled, written]
  simp only [bind_pure_comp]
  rfl

/-- A template with named arguments has a text when the arguments are named apart, their names are
those of the references, and all of them have a text. The references are replaced, and nothing else:
the texts in their places are not scanned. -/
theorem sql_named_iff (dialect : Dialect) (template : String) (args : List (String × Expr))
    (parenthesize : Bool) :
    (∃ tokens, Scanned false template.toList tokens) ∧
      ∀ tokens, Scanned false template.toList tokens → ∀ text,
        (placeholder template (.named args) parenthesize).sql dialect = .ok text ↔
          (args.map (·.1)).Nodup ∧ (∀ name, .reference name ∈ tokens ↔ name ∈ args.map (·.1)) ∧
            ∃ texts : String → String, (∀ arg ∈ args, arg.2.sql dialect = .ok (texts arg.1)) ∧
              text = inParentheses parenthesize
                (String.ofList (tokens.flatMap (Token.filled texts))) := by
  refine ⟨exists_scanned false template.toList, fun tokens scanned text => ?_⟩
  have names : (args.map fun (name, e) => (name, e.sql dialect)).map (·.1) = args.map (·.1) := by
    simp
  rw [sql_named]
  simp only [map_eq_ok_iff, withReferences_eq_ok_iff scanned, names, List.forall_mem_map]
  constructor
  · rintro ⟨_, ⟨apart, same, texts, each, rfl⟩, rfl⟩
    exact ⟨apart, same, texts, each, rfl⟩
  · rintro ⟨apart, same, texts, each, rfl⟩
    exact ⟨_, ⟨apart, same, texts, each, rfl⟩, rfl⟩

theorem scanned_quotedReference : Scanned false ":a::':b'".toList
    [.reference "a", .pair, .char '\'', .char ':', .char 'b', .char '\''] := by
  have later : Scanned false "::':b'".toList
      [.pair, .char '\'', .char ':', .char 'b', .char '\''] :=
    .pair (.char (.inr (by decide)) (.char (.inl rfl) (.char (.inl rfl) (.char (.inl rfl) .done))))
  have inner : ∀ c ∈ "a".toList, continuesName c = true := List.forall_mem_singleton.mpr rfl
  refine @Scanned.reference "a" _ _ ⟨'a', rfl, rfl⟩ inner ?_ later
  rintro c ⟨⟩
  rfl

/-- A text that looks like a reference is put in for one and stays. -/
theorem sql_named_iff_quotedReference (dialect : Dialect) :
    (placeholder ":a::':b'" (.named [("a", .literal ":c")]) true).sql dialect = .ok "(:c::':b')" := by
  refine ((sql_named_iff dialect _ _ true).2 _ scanned_quotedReference _).mpr ⟨?_, ?_, ?_⟩
  · decide
  · simp
  · exact ⟨fun _ => ":c", by simp [sql_eq_full, Rendering.write], by decide⟩

end Expr

end SqlExpr
