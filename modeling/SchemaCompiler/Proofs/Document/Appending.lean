import SchemaCompiler.Proofs.Grammar.Joining
import SchemaCompiler.Proofs.Source.Appending

/-!
Sources written one behind the other.

With a line feed between them, two sources say what they say apart: the definitions of the first,
and then those of the second with their places moved down. No definition reads on into the next,
whatever it ends with.
-/

namespace SchemaCompiler

open Lexer Grammar

theorem Lexer.Lexeme.kind_ne_eof {rest text : List Char} {kind : TokenKind}
    (h : Lexeme rest text kind) : kind ≠ .eof := by
  cases h <;> simp

theorem Lexer.IsCut.lexemes_inside {cs trailing : List Char} {pieces : List Piece}
    (h : IsCut cs pieces trailing) (p : Position) : ∀ t ∈ lexemesAt p pieces, t.kind ≠ .eof := by
  induction h generalizing p with
  | finish ignored => exact List.forall_mem_nil _
  | piece ignored lexeme more ih =>
    rw [lexemesAt, List.forall_mem_cons]
    exact ⟨lexeme.kind_ne_eof, ih _⟩

/-- What a document says, from its source cut into lexemes. -/
theorem Document.ofSource_eq_ok {name path source : String} {doc : Document}
    (h : Document.ofSource name path source = .ok doc) :
    ∃ pieces trailing, IsCut source.toList pieces trailing ∧
      Grammar.definitions (placed .start pieces trailing) = .ok doc.definitions := by
  unfold Document.ofSource at h
  split at h
  · cases h
  · next tokens tokenized =>
    split at h
    · cases h
    · next found read =>
      cases h
      obtain ⟨pieces, trailing, cut, rfl⟩ := exists_isCut_of_tokensFrom tokenized
      exact ⟨pieces, trailing, cut, read⟩

theorem definitions_down {cs trailing : List Char} {pieces : List Piece} {found : List Definition}
    (cut : IsCut cs pieces trailing)
    (read : definitions (placed .start pieces trailing) = .ok found) (n : Nat) :
    definitions ((placed .start pieces trailing).map (tokenDown n)) =
      .ok (found.map (Definition.moved (.down n))) := by
  rw [placed_eq] at read ⊢
  generalize (behindPieces .start pieces).advance trailing = place at read ⊢
  have bare : definitions [⟨.eof, place.down n⟩] = .ok [] := by
    rw [definitions]
    rfl
  have joined : Joined (.down n) [⟨.eof, place.down n⟩]
      (lexemesAt .start pieces ++ [⟨.eof, place⟩])
      ((lexemesAt .start pieces).map (tokenDown n) ++ [⟨.eof, place.down n⟩]) :=
    joined_append (cut.lexemes_inside .start) place
  have starts : StartsDefinition (kindsOf [⟨.eof, place.down n⟩]) := .eof []
  have moved := (definitions_joined starts joined).1 found read
  rw [bare] at moved
  rw [List.map_append]
  exact moved.trans (congrArg Except.ok (List.append_nil _))

theorem startsDefinition_of_definitions {t : Token} {ts : List Token} {found : List Definition}
    (read : definitions (t :: ts) = .ok found) : StartsDefinition (kindsOf (t :: ts)) := by
  rw [definitions] at read
  split at read
  · next finished =>
    have last : t.kind = .eof := of_decide_eq_true finished
    rw [kindsOf, List.map_cons, last]
    exact .eof _
  · cases first : definition (t :: ts) with
    | error failure =>
      rw [first] at read
      cases read
    | ok outcome => exact startsDefinition_of_definition first

/-- Two sources with a line feed between them say the definitions of the first and then those of
the second, so many lines further down as there are line ends in front of them. -/
theorem Document.ofSource_append {name path name' path' source source' : String}
    {doc doc' : Document} (h : Document.ofSource name path source = .ok doc)
    (h' : Document.ofSource name' path' source' = .ok doc') (name'' path'' : String) :
    Document.ofSource name'' path'' (source ++ "\n" ++ source') =
      .ok ⟨name'', path'', doc.definitions ++
        doc'.definitions.map (Definition.moved (.down (lineEnds (source ++ "\n").toList)))⟩ := by
  obtain ⟨pieces, trailing, cut, read⟩ := Document.ofSource_eq_ok h
  obtain ⟨pieces', trailing', cut', read'⟩ := Document.ofSource_eq_ok h'
  have line : (source ++ "\n").toList = source.toList ++ ['\n'] := by
    rw [String.toList_append]
    rfl
  have text : (source ++ "\n" ++ source').toList = source.toList ++ '\n' :: source'.toList := by
    rw [String.toList_append, line, List.append_assoc]
    rfl
  have tokenized := cut.tokens_line_feed cut'
  rw [← text, ← line] at tokenized
  generalize lineEnds (source ++ "\n").toList = n at tokenized ⊢
  have below := definitions_down cut' read' n
  have starts : StartsDefinition (kindsOf ((placed .start pieces' trailing').map (tokenDown n))) := by
    cases pieces' <;> exact startsDefinition_of_definitions below
  generalize (placed .start pieces' trailing').map (tokenDown n) = more at tokenized below starts
  rw [placed_eq] at read
  generalize (behindPieces .start pieces).advance trailing = place at read
  have joined : Joined id more (lexemesAt .start pieces ++ [⟨.eof, place⟩])
      (lexemesAt .start pieces ++ more) := by
    have stays : (lexemesAt .start pieces).map (fun t => (⟨t.kind, id t.position⟩ : Token)) =
        lexemesAt .start pieces := List.map_id _
    have seam : Joined id more _ _ := joined_append (cut.lexemes_inside .start) place
    rwa [stays] at seam
  have whole := (definitions_joined starts joined).1 _ read
  rw [below, Definition.moved_id, List.map_id] at whole
  rw [Document.ofSource, tokenize, tokenized]
  dsimp only
  rw [whole]
  rfl

/-- A list of interfaces without marks ends in front of a keyword, and the carriage return joins the
line feed. -/
theorem Document.ofSource_append_interfaces :
    let object : Definition := .type ⟨"A", none, [], .object ["B", "C"] [], ⟨1, 1⟩⟩
    let interface (line : UInt32) : Definition := .type ⟨"B", none, [], .interface [] [], ⟨line, 1⟩⟩
    Document.ofSource "a" "a.gql" "type A implements B, C\r" = .ok ⟨"a", "a.gql", [object]⟩ ∧
      Document.ofSource "b" "b.gql" "#\ninterface B" = .ok ⟨"b", "b.gql", [interface 2]⟩ ∧
      Document.ofSource "c" "c.gql" "type A implements B, C\r\n#\ninterface B" =
        .ok ⟨"c", "c.gql", [object, interface 3]⟩ := by
  intro object interface
  have first : Document.ofSource "a" "a.gql" "type A implements B, C\r" =
      .ok ⟨"a", "a.gql", [object]⟩ := by
    with_unfolding_all rfl
  have second : Document.ofSource "b" "b.gql" "#\ninterface B" = .ok ⟨"b", "b.gql", [interface 2]⟩ := by
    with_unfolding_all rfl
  exact ⟨first, second, Document.ofSource_append first second "c" "c.gql"⟩

end SchemaCompiler
