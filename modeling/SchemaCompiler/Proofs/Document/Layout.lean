import SchemaCompiler.Proofs.Document.Appending
import SchemaCompiler.Proofs.Source.Spacing

/-!
Layout means nothing to the parser.

What a source says depends on the kinds of its tokens alone: its tokens may be moved to one place
without a change in the outcome but in its positions. Closed ignored text between the lexemes changes
no kind, so it changes nothing but positions.
-/

namespace SchemaCompiler

open Lexer Grammar

/-! ## Definitions without places -/

theorem TypeKind.unplaced_eq_moved (kind : TypeKind) :
    kind.unplaced = kind.moved fun _ => .start := by
  cases kind <;> rfl

theorem Definition.unplaced_eq_moved : Definition.unplaced = Definition.moved fun _ => .start := by
  funext definition
  have type (declared : TypeDef) : declared.unplaced = declared.moved fun _ => .start := by
    rw [TypeDef.unplaced, TypeKind.unplaced_eq_moved]
    rfl
  cases definition with
  | schema root => rfl
  | type declared => exact congrArg Definition.type (type declared)
  | extend added => exact congrArg Definition.extend (type added)
  | directive declared => rfl

/-! ## Outcomes -/

/-- Outcomes that differ in positions alone: documents that are the same but for them, or one fault,
with one message, in one file. -/
inductive Alike : Except SourceError Document → Except SourceError Document → Prop where
  | documents {doc other : Document} (same : doc.unplaced = other.unplaced) :
      Alike (.ok doc) (.ok other)
  | faults (file : String) (place place' : Position) (fault : SyntaxFault) :
      Alike (.error ⟨file, .grammar place fault⟩) (.error ⟨file, .grammar place' fault⟩)

/-- Tokens of these kinds in one place, and the end there. -/
def stacked (kinds : List TokenKind) : List Token :=
  kinds.map (⟨·, .start⟩) ++ [⟨.eof, .start⟩]

/-- Tokens say what tokens of the same kinds in one place say. -/
theorem definitions_stacked {front : List Token} (inside : ∀ t ∈ front, t.kind ≠ .eof)
    (place : Position) :
    (∀ found, definitions (front ++ [⟨.eof, place⟩]) = .ok found →
      definitions (stacked (kindsOf front)) = .ok (found.map Definition.unplaced)) ∧
      ∀ here fault, definitions (front ++ [⟨.eof, place⟩]) = .error (here, fault) →
        ∃ there, definitions (stacked (kindsOf front)) = .error (there, fault) := by
  have moved : front.map (fun t => (⟨t.kind, .start⟩ : Token)) = (kindsOf front).map (⟨·, .start⟩) := by
    rw [kindsOf, List.map_map]
    rfl
  have joined : Joined (fun _ => .start) [⟨.eof, .start⟩] (front ++ [⟨.eof, place⟩])
      (stacked (kindsOf front)) := by
    rw [stacked, ← moved]
    exact joined_append inside place
  have starts : StartsDefinition (kindsOf [⟨.eof, .start⟩]) := .eof []
  obtain ⟨reads, fails⟩ := definitions_joined starts joined
  refine ⟨fun found read => ?_, fun here fault failed => fails here fault failed rfl⟩
  have bare : definitions [⟨.eof, .start⟩] = .ok [] := by
    rw [definitions]
    rfl
  rw [reads found read, bare, Definition.unplaced_eq_moved]
  exact congrArg Except.ok (List.append_nil _)

theorem kindsOf_lexemesAt (p : Position) (pieces : List Piece) :
    kindsOf (lexemesAt p pieces) = pieces.map Piece.kind := by
  induction pieces generalizing p with
  | nil => rfl
  | cons piece pieces ih => exact congrArg (piece.kind :: ·) (ih _)

/-- The tokens of a source are its lexemes and the end. -/
theorem Lexer.IsCut.tokens_eq {source : String} {pieces : List Piece} {trailing : List Char}
    (cut : IsCut source.toList pieces trailing) :
    ∃ front place, tokenize source = .ok (front ++ [⟨.eof, place⟩]) ∧
      (∀ t ∈ front, t.kind ≠ .eof) ∧ kindsOf front = pieces.map Piece.kind := by
  have tokens := cut.tokensFrom_eq .start
  rw [placed_eq] at tokens
  exact ⟨_, _, tokens, cut.lexemes_inside .start, kindsOf_lexemesAt _ _⟩

/-- The outcome for a source with tokens of these kinds. -/
theorem ofSource_of_kinds {name path source source' : String} {pieces pieces' : List Piece}
    {trailing trailing' : List Char} (cut : IsCut source.toList pieces trailing)
    (cut' : IsCut source'.toList pieces' trailing')
    (same : pieces.map Piece.kind = pieces'.map Piece.kind) :
    Alike (Document.ofSource name path source) (Document.ofSource name path source') := by
  obtain ⟨front, place, tokens, inside, kinds⟩ := cut.tokens_eq
  obtain ⟨front', place', tokens', inside', kinds'⟩ := cut'.tokens_eq
  obtain ⟨reads, fails⟩ := definitions_stacked inside place
  obtain ⟨reads', fails'⟩ := definitions_stacked inside' place'
  rw [kinds, same, ← kinds'] at reads fails
  rw [Document.ofSource, Document.ofSource, tokens, tokens']
  dsimp only
  cases outcome : definitions (front ++ [⟨.eof, place⟩]) with
  | ok found =>
    cases outcome' : definitions (front' ++ [⟨.eof, place'⟩]) with
    | ok found' =>
      have unplaced := (reads found outcome).symm.trans (reads' found' outcome')
      refine .documents ?_
      rw [Document.unplaced, Document.unplaced, Except.ok.inj unplaced]
    | error failure' =>
      obtain ⟨there, failed⟩ := fails' failure'.1 failure'.2 outcome'
      cases (reads found outcome).symm.trans failed
  | error failure =>
    obtain ⟨there, failed⟩ := fails failure.1 failure.2 outcome
    cases outcome' : definitions (front' ++ [⟨.eof, place'⟩]) with
    | ok found' => cases failed.symm.trans (reads' found' outcome')
    | error failure' =>
      obtain ⟨there', failed'⟩ := fails' failure'.1 failure'.2 outcome'
      obtain ⟨here, fault⟩ := failure
      obtain ⟨here', fault'⟩ := failure'
      cases failed.symm.trans failed'
      exact .faults path here here' fault

/-- The outcome for a source depends, positions aside, on the kinds of its tokens alone. So nothing
changes but positions if closed ignored text is put in front of the lexemes of a source and at its
end. -/
theorem Document.ofSource_layout (name path : String) :
    (∀ source source' tokens tokens', tokenize source = .ok tokens →
      tokenize source' = .ok tokens' → kindsOf tokens = kindsOf tokens' →
      Alike (Document.ofSource name path source) (Document.ofSource name path source')) ∧
    ∀ source tokens, tokenize source = .ok tokens → ∃ pieces trailing,
      IsCut source.toList pieces trailing ∧ source.toList = written pieces ++ trailing ∧
      placed .start pieces trailing = tokens ∧
      ∀ gaps last, gaps.length = pieces.length → (∀ gap ∈ gaps, Closed gap) → Closed last →
        Alike (Document.ofSource name path source)
          (Document.ofSource name path
            (String.ofList (written (gapped gaps pieces) ++ (trailing ++ last)))) := by
  constructor
  · intro source source' tokens tokens' tokenized tokenized' same
    obtain ⟨pieces, trailing, cut, rfl⟩ := exists_isCut_of_tokensFrom tokenized
    obtain ⟨pieces', trailing', cut', rfl⟩ := exists_isCut_of_tokensFrom tokenized'
    refine ofSource_of_kinds cut cut' ?_
    rw [placed_eq, placed_eq, kindsOf, kindsOf, List.map_append, List.map_append] at same
    have lexemes := (List.append_inj' same rfl).1
    rwa [← kindsOf, ← kindsOf, kindsOf_lexemesAt, kindsOf_lexemesAt] at lexemes
  · intro source tokens tokenized
    obtain ⟨pieces, trailing, cut, rfl⟩ := exists_isCut_of_tokensFrom tokenized
    refine ⟨pieces, trailing, cut, cut.cutsOff.text_eq, rfl, ?_⟩
    intro gaps last many closed closed_last
    have cut' := (cut.spaced many closed closed_last).1
    rw [← String.toList_ofList (l := written (gapped gaps pieces) ++ (trailing ++ last))] at cut'
    exact ofSource_of_kinds cut cut' (map_kind_gapped many).symm

/-- A list of interfaces over several lines, and a fault behind comments. -/
theorem Document.ofSource_layout_interfaces :
    tokenize "type A implements B C" = .ok
      [⟨.name "type", ⟨1, 1⟩⟩, ⟨.name "A", ⟨1, 6⟩⟩, ⟨.name "implements", ⟨1, 8⟩⟩,
        ⟨.name "B", ⟨1, 19⟩⟩, ⟨.name "C", ⟨1, 21⟩⟩, ⟨.eof, ⟨1, 22⟩⟩] ∧
    Alike (Document.ofSource "a" "a.gql" "type A implements B C")
      (Document.ofSource "a" "a.gql" "type A#:\n,implements B,\tC") ∧
    ∃ pieces trailing, placed .start pieces trailing =
        [⟨.name "type", ⟨1, 1⟩⟩, ⟨.punct .bang, ⟨1, 5⟩⟩, ⟨.eof, ⟨1, 6⟩⟩] ∧
      Alike (Document.ofSource "a" "a.gql" "type!")
        (Document.ofSource "a" "a.gql" (String.ofList (written
          (gapped (List.replicate pieces.length ['#', '!', '\r']) pieces) ++ (trailing ++ [','])))) := by
  have closed : Closed ['#', '!', '\r'] :=
    .comment (List.forall_mem_singleton.mpr rfl) rfl .nil
  have tokens : tokenize "type A implements B C" = .ok
      [⟨.name "type", ⟨1, 1⟩⟩, ⟨.name "A", ⟨1, 6⟩⟩, ⟨.name "implements", ⟨1, 8⟩⟩,
        ⟨.name "B", ⟨1, 19⟩⟩, ⟨.name "C", ⟨1, 21⟩⟩, ⟨.eof, ⟨1, 22⟩⟩] := by
    with_unfolding_all rfl
  have spread : tokenize "type A#:\n,implements B,\tC" = .ok
      [⟨.name "type", ⟨1, 1⟩⟩, ⟨.name "A", ⟨1, 6⟩⟩, ⟨.name "implements", ⟨2, 2⟩⟩,
        ⟨.name "B", ⟨2, 13⟩⟩, ⟨.name "C", ⟨2, 16⟩⟩, ⟨.eof, ⟨2, 17⟩⟩] := by
    with_unfolding_all rfl
  have marked : tokenize "type!" =
      .ok [⟨.name "type", ⟨1, 1⟩⟩, ⟨.punct .bang, ⟨1, 5⟩⟩, ⟨.eof, ⟨1, 6⟩⟩] := by
    with_unfolding_all rfl
  obtain ⟨same, insertion⟩ := Document.ofSource_layout "a" "a.gql"
  obtain ⟨pieces, trailing, -, -, placed, alike⟩ := insertion _ _ marked
  refine ⟨tokens, same _ _ _ _ tokens spread rfl, pieces, trailing, placed, ?_⟩
  refine alike _ [','] List.length_replicate (fun gap member => ?_) (.char rfl .nil)
  rwa [List.eq_of_mem_replicate member]

end SchemaCompiler
