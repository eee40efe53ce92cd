import SchemaCompiler.Proofs.Document.CanonicalLexing
import SchemaCompiler.Proofs.Grammar.DefinitionsRead
import SchemaCompiler.Proofs.Grammar.Soundness

/-!
The documents that sources say are the well-formed ones, up to positions.
-/

namespace SchemaCompiler

open Lexer Grammar

/-- A text with the tokens of a well-formed document says that document. -/
theorem Document.reads_of_lexes {doc : Document} (h : doc.WellFormed) {source : String}
    (lexes : Lexes source.toList (Word.tokens doc.words ++ [.eof])) :
    ∃ parsed, Document.ofSource doc.name doc.path source = .ok parsed ∧
      parsed.unplaced = doc.unplaced := by
  obtain ⟨tokens, lexed, shape⟩ := lexes.exists_tokens .start
  obtain ⟨found, read, same⟩ := definitions_read h shape
  refine ⟨⟨doc.name, doc.path, found⟩, ?_, ?_⟩
  · rw [Document.ofSource, tokenize, lexed]
    simp only [read]
  · rw [Document.unplaced, Document.unplaced, same]

/-- The canonical text of a well-formed document says that document. -/
theorem Document.reads_canonical {doc : Document} (h : doc.WellFormed) :
    ∃ parsed, Document.ofSource doc.name doc.path doc.canonical = .ok parsed ∧
      parsed.unplaced = doc.unplaced :=
  reads_of_lexes h (lexes_canonical h)

/-- The tokens of a source are well spelled. -/
theorem spelled_of_tokenize {source : String} {tokens : List Token}
    (h : tokenize source = .ok tokens) : TokensSpelled tokens := by
  intro t member
  have kinds := (lexes_of_tokens h).wellSpelled
  exact kinds t.kind (List.mem_map_of_mem member)

/-- Whatever a source says is well formed. -/
theorem Document.wellFormed_of_source {name path source : String} {doc : Document}
    (h : Document.ofSource name path source = .ok doc) : doc.WellFormed := by
  unfold Document.ofSource at h
  split at h
  · cases h
  · next tokens lexed =>
    split at h
    · cases h
    · next definitions read =>
      cases h
      exact definitions_wellFormed (spelled_of_tokenize lexed) read

/-- Sources say well-formed documents and no others: each of them is what its canonical text says,
up to positions. -/
theorem Document.sources_say_exactly_wellFormed :
    (∀ doc : Document, doc.WellFormed →
      ∃ parsed, Document.ofSource doc.name doc.path doc.canonical = .ok parsed ∧
        parsed.unplaced = doc.unplaced) ∧
    ∀ (name path source : String) (doc : Document),
      Document.ofSource name path source = .ok doc → doc.WellFormed :=
  ⟨fun _ h => reads_canonical h, fun _ _ _ _ h => wellFormed_of_source h⟩

/-- Words of the grammar in every place where a name stands. -/
def Document.ofKeywords : Document where
  name := "keywords"
  path := "keywords.graphql"
  definitions := [
    .type {
      name := "type"
      description := some "\"implements\" is a name"
      directives := [⟨"on", [⟨"input", .object [("query", .list [.enum "enum", .null])]⟩], .start⟩]
      kind := .object ["implements", "extend"]
        [⟨"repeatable", none, [], .nonNull (.list (.named "union")), [], .start⟩]
      position := .start },
    .extend ⟨"scalar", none, [], .scalar, .start⟩,
    .directive ⟨"on", none, [], true, ["FIELD", "ENUM"], .start⟩]

theorem Document.ofKeywords_said : Document.ofKeywords.WellFormed ∧
    ∃ parsed, Document.ofSource "keywords" "keywords.graphql" Document.ofKeywords.canonical =
      .ok parsed ∧ parsed.unplaced = Document.ofKeywords.unplaced ∧ parsed.WellFormed := by
  have names : ∀ name ∈ ["implements", "extend"], IsName name := by decide
  have good : Document.ofKeywords.WellFormed := by
    intro definition member
    simp only [ofKeywords, List.mem_cons, List.not_mem_nil, or_false] at member
    rcases member with rfl | rfl | rfl
    · refine ⟨by decide, ?_, names, ?_⟩
      · simp [DirectiveUse.WellFormed, Argument.WellFormed, Value.WellFormed,
          Value.EntriesWellFormed, Value.ItemsWellFormed]
        decide
      · rintro field (_ | ⟨_, ⟨⟩⟩)
        have ty : IsName "union" := by decide
        exact ⟨by decide, by simp, ⟨ty, by simp⟩, by simp⟩
    · exact ⟨⟨by decide, by simp, trivial⟩, rfl⟩
    · exact ⟨by decide, by simp, by simp, by decide⟩
  obtain ⟨parsed, read, same⟩ := Document.sources_say_exactly_wellFormed.1 _ good
  exact ⟨good, parsed, read, same, Document.sources_say_exactly_wellFormed.2 _ _ _ _ read⟩

end SchemaCompiler
