import SchemaCompiler.Proofs.Commonmark.Lines
import SchemaCompiler.Proofs.Commonmark.Names

/-!
Links to fragments.

A link whose text and fragment are names reads as just this link: nothing in a name escapes, ends a
destination or closes a bracket. Such a link at the start of a line is no definition, since a
parenthesis follows its label.
-/

namespace SchemaCompiler.Commonmark

open Lexer (isNameContinue isNameStart)

/-- A link to a fragment, as it is written. -/
def fragmentLink (label fragment : List Char) : List Char :=
  '[' :: (label ++ ']' :: '(' :: '#' :: (fragment ++ [')']))

/-! ## Destinations -/

/-- Nothing in a destination ends it or stands for another character. -/
def IsPlainDestination (cs : List Char) : Prop :=
  ∀ c ∈ cs, 0x20 < c.toNat ∧ c ≠ '\\' ∧ c ≠ '&' ∧ c ≠ '(' ∧ c ≠ ')'

theorem bareDestination?_plain {cs : List Char} (h : IsPlainDestination cs) (rest : List Char) :
    bareDestination? 0 (cs ++ ')' :: rest) = some (cs, ')' :: rest) := by
  induction cs with
  | nil => rfl
  | cons c cs ih =>
    obtain ⟨⟨visible, escape, -, opening, closing⟩, later⟩ := List.forall_mem_cons.mp h
    have next := ih later
    rw [List.cons_append]
    generalize cs ++ ')' :: rest = behind at next ⊢
    rw [bareDestination?.eq_def]
    split
    · contradiction
    · rename_i same
      cases same
      exact absurd rfl escape
    · rename_i same
      cases same
      rw [if_neg (Nat.not_le.mpr visible), if_neg opening, if_neg closing, next]
      rfl

theorem unescapeWith_plain {cs : List Char} (h : IsPlainDestination cs) (fuel : Nat) :
    unescapeWith fuel cs = cs := by
  induction fuel generalizing cs with
  | zero => cases cs <;> rfl
  | succ fuel ih =>
    cases cs with
    | nil => rfl
    | cons c cs =>
      obtain ⟨⟨-, escape, reference, -⟩, later⟩ := List.forall_mem_cons.mp h
      rw [unescapeWith.eq_def]
      dsimp only
      split
      · exact absurd rfl escape
      · exact absurd rfl reference
      · rw [ih later]

theorem inlineTarget?_fragment {fragment : List Char} (h : IsPlainDestination fragment) :
    inlineTarget? ('(' :: '#' :: (fragment ++ [')'])) = some ('#' :: fragment, [], []) := by
  have plain : IsPlainDestination ('#' :: fragment) :=
    List.forall_mem_cons.mpr ⟨by decide, h⟩
  have found : destination? ('#' :: (fragment ++ [')'])) = some ('#' :: fragment, [')']) :=
    bareDestination?_plain plain []
  have blanks : ('#' :: (fragment ++ [')'])).dropWhile isWhitespace = '#' :: (fragment ++ [')']) :=
    rfl
  rw [inlineTarget?]
  simp only [blanks, found, Option.bind_eq_bind, Option.bind_some]
  change some (unescape ('#' :: fragment), ([] : List Char), ([] : List Char)) = _
  rw [unescape, unescapeWith_plain plain]

/-! ## Brackets -/

theorem findBracket?_pieces {pieces : List Piece}
    (h : ∀ piece ∈ pieces, piece.IsBracket = false) (behind : List Piece) (image active : Bool)
    (text : List Char) (front : List Piece) :
    findBracket? behind (pieces ++ .bracket image active text :: front) =
      some (pieces.reverse ++ behind, image, active, text, front) := by
  induction pieces generalizing behind with
  | nil => rfl
  | cons piece pieces ih =>
    rw [List.forall_mem_cons] at h
    rw [List.reverse_cons, List.append_assoc, List.cons_append]
    cases piece with
    | bracket => cases h.1
    | _ => exact ih h.2 _

/-- A closing bracket in front of a fragment completes a link. -/
theorem closeBracket_fragment {pieces : List Piece}
    (h : ∀ piece ∈ pieces, piece.IsBracket = false) {fragment : List Char}
    (plain : IsPlainDestination fragment) (definitions : List LinkDefinition)
    (behind : List Char) :
    closeBracket definitions (pieces.reverse ++ [.bracket false true behind])
        ('(' :: '#' :: (fragment ++ [')'])) =
      ([.done (.link ('#' :: fragment) [] (settle pieces))], []) := by
  have noBracket : ∀ piece ∈ pieces.reverse, piece.IsBracket = false := fun piece member =>
    h piece (List.mem_reverse.mp member)
  rw [closeBracket, findBracket?_pieces noBracket, List.reverse_reverse, List.append_nil]
  simp only [target?, inlineTarget?_fragment plain]
  rfl

theorem readInlines_fragmentLink {label fragment : List Char} {inlines : List Inline}
    (reads : ReadsAs label inlines) (plain : IsPlainDestination fragment)
    (definitions : List LinkDefinition) :
    readInlines definitions (fragmentLink label fragment) =
      [.link ('#' :: fragment) [] inlines] := by
  let tail : List Char := ']' :: '(' :: '#' :: (fragment ++ [')'])
  have opened : readPieces definitions (fragmentLink label fragment).length none []
      (fragmentLink label fragment) =
      readPieces definitions (label ++ tail).length (some '[') [.bracket false true (label ++ tail)]
        (label ++ tail) := by
    have last : lastRead ('[' :: (label ++ tail)) (label ++ tail) = some '[' :=
      lastRead_append (List.cons_ne_nil '[' []) _
    rw [← last]
    exact readPieces_step rfl
  obtain ⟨pieces, fuel, last, noBracket, settled, enough, read⟩ := reads definitions (some '[')
    [.bracket false true (label ++ tail)] tail (label ++ tail).length (.inr (.inl rfl))
    (.inr (.inr rfl)) (Nat.le_refl _)
  obtain ⟨fuel, rfl⟩ : ∃ n, fuel = n + 1 := Nat.exists_eq_succ_of_ne_zero fun zero => by
    rw [zero] at enough
    exact absurd enough (by simp [tail])
  have closed : readPieces definitions (fuel + 1) last
      (pieces.reverse ++ [.bracket false true (label ++ tail)]) tail =
      [.done (.link ('#' :: fragment) [] inlines)] := by
    have step : readPiece definitions last (pieces.reverse ++ [.bracket false true (label ++ tail)])
        ']' ('(' :: '#' :: (fragment ++ [')'])) =
        ([.done (.link ('#' :: fragment) [] (settle pieces))], []) :=
      closeBracket_fragment noBracket plain definitions _
    rw [← settled, readPieces_step step, readPieces]
  rw [readInlines, opened, read, closed]
  rfl

/-! ## Links at the start of a line -/

/-- Nothing in a label ends it. -/
def IsPlainLabel (cs : List Char) : Prop := ∀ c ∈ cs, c ≠ '[' ∧ c ≠ ']' ∧ c ≠ '\\'

theorem labelBody?_plain {label : List Char} (h : IsPlainLabel label) (rest : List Char) :
    labelBody? (label ++ ']' :: rest) = some (label, rest) := by
  induction label with
  | nil => rfl
  | cons c label ih =>
    obtain ⟨⟨opening, closing, escape⟩, later⟩ := List.forall_mem_cons.mp h
    have next := ih later
    rw [List.cons_append]
    generalize label ++ ']' :: rest = behind at next ⊢
    rw [labelBody?.eq_def]
    split
    · contradiction
    · rename_i same
      cases same
      exact absurd rfl closing
    · rename_i same
      cases same
      exact absurd rfl opening
    · rename_i same
      cases same
      exact absurd rfl escape
    · rename_i same
      cases same
      rw [next]
      rfl

/-- A link is no definition: what follows its label is no colon. -/
theorem linkDefinition?_fragmentLink {label : List Char} (h : IsPlainLabel label)
    (fragment rest : List Char) :
    linkDefinition? (fragmentLink label fragment ++ rest) = none := by
  have split : fragmentLink label fragment ++ rest =
      '[' :: (label ++ ']' :: '(' :: '#' :: (fragment ++ ')' :: rest)) := by
    simp [fragmentLink]
  have none : label? (fragmentLink label fragment ++ rest) = none ∨
      label? (fragmentLink label fragment ++ rest) =
        some (label, '(' :: '#' :: (fragment ++ ')' :: rest)) := by
    rw [split, label?, labelBody?_plain h, Option.filter_some]
    exact (Decidable.em _).elim (fun short => .inr (if_pos short)) fun long => .inl (if_neg long)
  rw [linkDefinition?]
  rcases none with same | same <;> rw [same] <;> rfl

/-! ## Names in links -/

theorem plainDestination_name {name : List Char} (h : NameSpelling name) :
    IsPlainDestination name := by
  intro c member
  rcases isNameContinue_cases ((chars_of_nameSpelling h).2 c member) with rfl | letter
  · decide
  · have bounds := isAlphanumeric_bounds letter
    refine ⟨by omega, ?_, ?_, ?_, ?_⟩ <;> rintro rfl <;> exact absurd letter (by decide)

theorem plainLabel_name {name : List Char} (h : NameSpelling name) : IsPlainLabel name := by
  intro c member
  rcases isNameContinue_cases ((chars_of_nameSpelling h).2 c member) with rfl | letter
  · decide
  · refine ⟨?_, ?_, ?_⟩ <;> rintro rfl <;> exact absurd letter (by decide)

theorem not_isLineEnd_name {name : List Char} (h : NameSpelling name) :
    ∀ c ∈ name, ¬ IsLineEnd c := by
  rintro c member (rfl | rfl)
  all_goals exact absurd ((chars_of_nameSpelling h).2 _ member) (by decide)

end SchemaCompiler.Commonmark
