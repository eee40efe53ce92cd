import SchemaCompiler.Proofs.Document.Canonical
import SchemaCompiler.Proofs.Source.Lexing

/-!
The tokens of the canonical text.

Every word of a well-formed document is spelled so that it lexes to its own tokens when text that
extends nothing follows it, and a space or a closing mark is such text.
-/

namespace SchemaCompiler

open Lexer

/-! ## Text and its tokens -/

/-- In front of text that ends it, the text lexes to these tokens. -/
def Spells (text : List Char) (kinds : List TokenKind) : Prop :=
  ∀ rest more, Ends rest → Lexes rest more → Lexes (text ++ rest) (kinds ++ more)

theorem spells_nil : Spells [] [] := fun _ _ _ behind => behind

theorem Spells.lexes {text : List Char} {kinds : List TokenKind} (h : Spells text kinds) :
    Lexes text (kinds ++ [.eof]) := by
  have whole := h [] [.eof] ends_nil (.finish rfl)
  rwa [List.append_nil] at whole

theorem Lexer.ScansAs.spells {text : List Char} {kind : TokenKind} (h : ScansAs text kind) :
    Spells text [kind] :=
  fun _ _ ends behind => h.lexes ends behind

theorem ends_cons_ignored {c : Char} (ignored : isIgnored c = true) (rest : List Char) :
    Ends (c :: rest) := by
  simp only [isIgnored, Bool.or_eq_true, beq_iff_eq] at ignored
  rcases ignored with ((((rfl | rfl) | rfl) | rfl) | rfl) | rfl <;>
    exact ends_cons (by decide) (by decide) (by decide)

theorem ends_cons_mark (mark : Punctuator) (rest : List Char) : Ends (mark.char :: rest) := by
  cases mark <;> exact ends_cons (by decide) (by decide) (by decide)

theorem Spells.append {first second : List Char} {kinds kinds' : List TokenKind}
    (h : Spells first kinds) (h' : Spells second kinds')
    (apart : ∀ rest, Ends rest → Ends (second ++ rest)) :
    Spells (first ++ second) (kinds ++ kinds') := by
  intro rest more ends behind
  rw [List.append_assoc, List.append_assoc]
  exact h _ _ (apart rest ends) (h' rest more ends behind)

theorem spells_mark (mark : Punctuator) : Spells [mark.char] [.punct mark] :=
  fun _ _ _ behind => lexes_mark mark behind

/-- A mark ends every piece of text in front of it. -/
theorem Spells.mark {text : List Char} {kinds : List TokenKind} (h : Spells text kinds)
    (mark : Punctuator) : Spells (text ++ [mark.char]) (kinds ++ [.punct mark]) :=
  h.append (spells_mark mark) fun rest _ => ends_cons_mark mark rest

theorem Spells.behind_mark {text : List Char} {kinds : List TokenKind} (h : Spells text kinds)
    (mark : Punctuator) : Spells (mark.char :: text) (.punct mark :: kinds) :=
  fun rest more ends behind => lexes_mark mark (h rest more ends behind)

theorem Spells.cons_ignored {text : List Char} {kinds : List TokenKind} (h : Spells text kinds)
    {c : Char} (ignored : isIgnored c = true) : Spells (c :: text) kinds :=
  fun rest more ends behind => (h rest more ends behind).cons_ignored ignored

theorem Spells.append_ignored {text : List Char} {kinds : List TokenKind} (h : Spells text kinds)
    {c : Char} (ignored : isIgnored c = true) {tail : List Char} {kinds' : List TokenKind}
    (h' : Spells tail kinds') : Spells (text ++ c :: tail) (kinds ++ kinds') :=
  h.append (h'.cons_ignored ignored) fun rest _ => ends_cons_ignored ignored (tail ++ rest)

theorem Spells.ignored_append {tail : List Char} {behind : List TokenKind} (h : Spells tail behind)
    {cs : List Char} (ignored : cs.all isIgnored = true) : Spells (cs ++ tail) behind := by
  induction cs with
  | nil => exact h
  | cons c cs ih =>
    rw [List.all_cons, Bool.and_eq_true] at ignored
    exact (ih ignored.2).cons_ignored ignored.1

/-- Pieces of text with a separator of ignored characters between each two. -/
theorem spells_intercalate {α : Type} {separator : List Char} (nonempty : separator ≠ [])
    (ignored : separator.all isIgnored = true) (text : α → List Char)
    (kinds : α → List TokenKind) (items : List α)
    (each : ∀ item ∈ items, Spells (text item) (kinds item)) :
    Spells (separator.intercalate (items.map text)) (items.flatMap kinds) := by
  induction items with
  | nil => exact spells_nil
  | cons item items ih =>
    have first := each item List.mem_cons_self
    have later := ih fun other member => each other (List.mem_cons_of_mem _ member)
    cases items with
    | nil => simpa using first
    | cons next items =>
      cases separator with
      | nil => exact absurd rfl nonempty
      | cons c cs =>
        rw [List.all_cons, Bool.and_eq_true] at ignored
        have behind := later.ignored_append ignored.2
        rw [List.map_cons, List.map_cons, List.intercalate_cons_cons, List.flatMap_cons]
        have whole := first.append_ignored ignored.1 behind
        simpa only [List.append_assoc, List.cons_append, List.map_cons] using whole

/-! ## Words -/

def Word.WellFormed : Word → Prop
  | name text => IsName text
  | typeRef ref => ref.WellFormed
  | constant value => value.WellFormed
  | _ => True

theorem spells_name {text : String} (h : IsName text) : Spells text.toList [.name text] := by
  have scans := (scansAs_name h).spells
  rwa [String.ofList_toList] at scans

theorem spells_int {text : String} (h : IsInt text) : Spells text.toList [.int text] := by
  obtain ⟨sign, whole, spelling, shape⟩ := h
  have scans := (scansAs_number spelling).spells
  simp only [List.append_nil, ← shape, String.ofList_toList] at scans
  exact scans

theorem spells_float {text : String} (h : IsFloat text) : Spells text.toList [.float text] := by
  obtain ⟨sign, whole, fraction, exponent, spelling, parts, shape⟩ := h
  have scans := (scansAs_number spelling).spells
  have kind : (fraction.isEmpty && exponent.isEmpty) = false := by
    rw [Bool.and_eq_false_iff, List.isEmpty_eq_false_iff, List.isEmpty_eq_false_iff]
    exact parts
  simp only [← shape, String.ofList_toList, kind, Bool.false_eq_true, if_false] at scans
  exact scans

theorem toList_quoted (value : String) :
    (Value.quoted value).toList = '"' :: (escaped value.toList ++ ['"']) := by
  rw [Value.quoted, String.toList_append, String.toList_append, String.toList_join,
    List.flatMap_map]
  rfl

theorem spells_quoted (value : String) :
    Spells (Value.quoted value).toList [.string value] := by
  have scans := (scansAs_quoted value.toList).spells
  rwa [String.ofList_toList, ← toList_quoted] at scans

theorem TypeRef.spells {ref : TypeRef} (h : ref.WellFormed) : Spells ref.text.toList ref.kinds := by
  induction ref with
  | named name => exact spells_name h
  | list inner ih =>
    have behind := ((ih h).mark .bracketClose).behind_mark .bracketOpen
    rw [TypeRef.text, String.toList_append, String.toList_append]
    exact behind
  | nonNull inner ih =>
    rw [TypeRef.text, String.toList_append]
    exact (ih h.1).mark .bang

namespace Value

theorem itemTexts_eq_map (items : List Value) : itemTexts items = items.map text := by
  induction items with
  | nil => rfl
  | cons item items ih => rw [itemTexts, ih, List.map_cons]

def entryText (entry : String × Value) : String := entry.1 ++ ": " ++ entry.2.text

theorem entryTexts_eq_map (entries : List (String × Value)) :
    entryTexts entries = entries.map entryText := by
  induction entries with
  | nil => rfl
  | cons entry entries ih =>
    obtain ⟨name, value⟩ := entry
    rw [entryTexts, ih, List.map_cons]
    rfl

/-- Pieces with commas between them, inside a pair of marks. -/
theorem spells_bracketed {α : Type} (openMark close : Punctuator) (text : α → String)
    (kinds : α → List TokenKind) (items : List α)
    (each : ∀ item ∈ items, Spells (text item).toList (kinds item)) :
    Spells (openMark.char :: ((String.intercalate ", " (items.map text)).toList ++ [close.char]))
      (.punct openMark :: (items.flatMap kinds ++ [.punct close])) := by
  have inside : Spells (String.intercalate ", " (items.map text)).toList (items.flatMap kinds) := by
    rw [String.toList_intercalate, List.map_map]
    exact spells_intercalate (by decide) (by decide) _ kinds items each
  exact (inside.mark close).behind_mark openMark

theorem spells_entry {name : String} {value : Value} (h : IsName name)
    (spelled : Spells value.text.toList value.kinds) :
    Spells (entryText (name, value)).toList (entryTokens (name, value)) := by
  have named := (spells_name h).mark .colon
  have whole := named.append_ignored (c := ' ') (by decide) spelled
  have separator : ": ".toList = [Punctuator.colon.char] ++ [' '] := rfl
  rw [entryText, String.toList_append, String.toList_append, separator, ← List.append_assoc,
    List.append_assoc _ [' ']]
  exact whole

mutual

theorem spells : (value : Value) → value.WellFormed → Spells value.text.toList value.kinds
  | .int text, h => spells_int h
  | .float text, h => spells_float h
  | .string value, _ => spells_quoted value
  | .boolean true, _ => spells_name (by decide)
  | .boolean false, _ => spells_name (by decide)
  | .null, _ => spells_name (by decide)
  | .enum name, h => spells_name h.1
  | .list items, h => by
    have inside := spells_bracketed .bracketOpen .bracketClose text kinds items (spells_items items h)
    rw [text, kinds, itemTexts_eq_map, itemKinds_eq_flatMap, String.toList_append,
      String.toList_append]
    exact inside
  | .object entries, h => by
    have inside := spells_bracketed .braceOpen .braceClose entryText entryTokens entries
      (spells_entries entries h)
    rw [text, kinds, entryTexts_eq_map, entryKinds_eq_flatMap, String.toList_append,
      String.toList_append]
    exact inside

theorem spells_items : (items : List Value) → ItemsWellFormed items →
    ∀ item ∈ items, Spells item.text.toList item.kinds
  | [], _ => List.forall_mem_nil _
  | item :: items, h => by
    have first := spells item h.1
    have more := spells_items items h.2
    intro other member
    rcases List.mem_cons.mp member with rfl | later
    · exact first
    · exact more other later

theorem spells_entries : (entries : List (String × Value)) → EntriesWellFormed entries →
    ∀ entry ∈ entries, Spells (entryText entry).toList (entryTokens entry)
  | [], _ => List.forall_mem_nil _
  | (name, value) :: entries, h => by
    have first := spells_entry h.1 (spells value h.2.1)
    have more := spells_entries entries h.2.2
    intro other member
    rcases List.mem_cons.mp member with rfl | later
    · exact first
    · exact more other later

end

end Value

theorem Word.spells {word : Word} (h : word.WellFormed) : Spells word.text.toList word.kinds := by
  cases word with
  | name text => exact spells_name h
  | mark punctuator =>
    have single : punctuator.char.toString.toList = [punctuator.char] := by
      simp [Char.toString]
    rw [text, single]
    exact spells_mark punctuator
  | quoted value => exact spells_quoted value
  | typeRef ref => exact TypeRef.spells h
  | constant value => exact Value.spells value h

/-- Well-formed words with spaces between them lex to their tokens. -/
theorem lexes_words {words : List Word} (h : ∀ word ∈ words, word.WellFormed) :
    Lexes (String.intercalate " " (words.map Word.text)).toList
      (Word.tokens words ++ [.eof]) := by
  have whole : Spells (String.intercalate " " (words.map Word.text)).toList
      (Word.tokens words) := by
    rw [String.toList_intercalate, List.map_map]
    exact spells_intercalate (by decide) (by decide) _ Word.kinds words fun word member =>
      Word.spells (h word member)
  exact whole.lexes

/-! ## The words of a well-formed document -/

/-- All of the words are spelled as they should be. -/
def Spelled (words : List Word) : Prop := ∀ word ∈ words, word.WellFormed

theorem spelled_nil : Spelled [] := List.forall_mem_nil _

theorem Word.wellFormed_name {text : String} (h : IsName text) : (Word.name text).WellFormed := h

theorem spelled_cons_iff {word : Word} {words : List Word} :
    Spelled (word :: words) ↔ word.WellFormed ∧ Spelled words :=
  List.forall_mem_cons

theorem spelled_append_iff {words words' : List Word} :
    Spelled (words ++ words') ↔ Spelled words ∧ Spelled words' :=
  List.forall_mem_append

theorem spelled_flatMap {α : Type} {words : α → List Word} {items : List α}
    (each : ∀ item ∈ items, Spelled (words item)) : Spelled (items.flatMap words) :=
  List.forall_mem_flatMap.mpr each

theorem spelled_description (description : Option String) : Spelled (Word.description description) := by
  cases description with
  | none => exact spelled_nil
  | some text => exact spelled_cons_iff.mpr ⟨trivial, spelled_nil⟩

theorem spelled_block {α : Type} {openMark close : Punctuator} {words : α → List Word}
    {items : List α} (each : ∀ item ∈ items, Spelled (words item)) :
    Spelled (Word.block openMark close words items) := by
  cases items with
  | nil => exact spelled_nil
  | cons item items =>
    rw [Word.block, spelled_cons_iff, spelled_append_iff]
    · exact ⟨trivial, spelled_flatMap each, spelled_cons_iff.mpr ⟨trivial, spelled_nil⟩⟩
    · simp

theorem spelled_separated {mark : Punctuator} {names : List String}
    (each : ∀ name ∈ names, IsName name) : Spelled (Word.separated mark names) := by
  induction names with
  | nil => exact spelled_nil
  | cons name names ih =>
    obtain ⟨first, more⟩ := List.forall_mem_cons.mp each
    cases names with
    | nil => exact spelled_cons_iff.mpr ⟨first, spelled_nil⟩
    | cons next names => exact spelled_cons_iff.mpr ⟨first, spelled_cons_iff.mpr ⟨trivial, ih more⟩⟩

theorem spelled_listing (front : Word) (good : front.WellFormed) {mark : Punctuator}
    {names : List String} (each : ∀ name ∈ names, IsName name) :
    Spelled (Word.listing front mark names) := by
  cases names with
  | nil => exact spelled_nil
  | cons name names => exact spelled_cons_iff.mpr ⟨good, spelled_separated each⟩

theorem DirectiveUse.spelled {use : DirectiveUse} (h : use.WellFormed) : Spelled use.words := by
  have args : ∀ arg ∈ use.args, Spelled arg.words := by
    intro arg member
    obtain ⟨name, value⟩ := h.2 arg member
    simp only [Argument.words, spelled_cons_iff]
    exact ⟨name, trivial, value, spelled_nil⟩
  simp only [DirectiveUse.words, spelled_append_iff, spelled_cons_iff]
  exact ⟨⟨trivial, h.1, spelled_nil⟩, spelled_block args⟩

theorem spelled_directives {uses : List DirectiveUse} (h : ∀ use ∈ uses, use.WellFormed) :
    Spelled (uses.flatMap DirectiveUse.words) :=
  spelled_flatMap fun use member => DirectiveUse.spelled (h use member)

theorem InputValue.spelled {value : InputValue} (h : value.WellFormed) : Spelled value.words := by
  have default : Spelled (Word.default value.default) := by
    cases given : value.default with
    | none => exact spelled_nil
    | some constant =>
      simp only [Word.default, spelled_cons_iff]
      exact ⟨trivial, h.default constant given, spelled_nil⟩
  simp only [InputValue.words, spelled_append_iff, spelled_cons_iff]
  exact ⟨⟨⟨spelled_description _, h.name, trivial, h.ty, spelled_nil⟩, default⟩,
    spelled_directives h.directives⟩

theorem spelled_inputValues {openMark close : Punctuator} {values : List InputValue}
    (h : ∀ value ∈ values, value.WellFormed) :
    Spelled (Word.block openMark close InputValue.words values) :=
  spelled_block fun value member => InputValue.spelled (h value member)

theorem Field.spelled {field : Field} (h : field.WellFormed) : Spelled field.words := by
  simp only [Field.words, spelled_append_iff, spelled_cons_iff]
  exact ⟨⟨⟨⟨spelled_description _, h.name, spelled_nil⟩, spelled_inputValues h.args⟩, trivial, h.ty,
    spelled_nil⟩, spelled_directives h.directives⟩

theorem EnumValue.spelled {value : EnumValue} (h : value.WellFormed) : Spelled value.words := by
  simp only [EnumValue.words, spelled_append_iff, spelled_cons_iff]
  exact ⟨⟨spelled_description _, h.name, spelled_nil⟩, spelled_directives h.directives⟩

theorem Operation.isName_keyword (operation : Operation) : IsName operation.keyword := by
  cases operation <;> decide

theorem OperationType.spelled {operation : OperationType} (h : IsName operation.typeName) :
    Spelled operation.words := by
  simp only [OperationType.words, spelled_cons_iff]
  exact ⟨operation.operation.isName_keyword, trivial, h, spelled_nil⟩

theorem TypeKind.isName_keyword (kind : TypeKind) : IsName kind.keyword := by
  cases kind <;> simp only [TypeKind.keyword] <;> decide

theorem TypeKind.spelled_interfaces {kind : TypeKind} (h : kind.WellFormed) :
    Spelled kind.interfaceWords := by
  have front : (Word.name "implements").WellFormed := Word.wellFormed_name (by decide)
  cases kind with
  | object interfaces fields => exact spelled_listing _ front h.1
  | interface interfaces fields => exact spelled_listing _ front h.1
  | _ => exact spelled_nil

theorem TypeKind.spelled_body {kind : TypeKind} (h : kind.WellFormed) : Spelled kind.bodyWords := by
  cases kind with
  | scalar => exact spelled_nil
  | object interfaces fields => exact spelled_block fun field member => Field.spelled (h.2 field member)
  | interface interfaces fields => exact spelled_block fun field member => Field.spelled (h.2 field member)
  | union members => exact spelled_listing (.mark .equals) trivial h
  | enum values => exact spelled_block fun value member => EnumValue.spelled (h value member)
  | inputObject fields => exact spelled_inputValues h

theorem TypeDef.spelled {type : TypeDef} (h : type.WellFormed) : Spelled type.words := by
  simp only [TypeDef.words, spelled_append_iff, spelled_cons_iff]
  exact ⟨⟨⟨⟨spelled_description _, type.kind.isName_keyword, h.name, spelled_nil⟩,
    TypeKind.spelled_interfaces h.kind⟩, spelled_directives h.directives⟩,
    TypeKind.spelled_body h.kind⟩

theorem SchemaDef.spelled {schema : SchemaDef} (h : schema.WellFormed) : Spelled schema.words := by
  have keyword : (Word.name "schema").WellFormed := Word.wellFormed_name (by decide)
  have front : Spelled (if schema.extension then [Word.name "extend"] else []) := by
    split
    · exact spelled_cons_iff.mpr ⟨Word.wellFormed_name (by decide), spelled_nil⟩
    · exact spelled_nil
  have operations : ∀ operation ∈ schema.operations, Spelled operation.words :=
    fun operation member => OperationType.spelled (h.operations operation member)
  have body : Spelled schema.operationWords := by
    unfold SchemaDef.operationWords
    split
    · exact spelled_block operations
    · rw [spelled_cons_iff, spelled_append_iff]
      exact ⟨trivial, spelled_flatMap operations, spelled_cons_iff.mpr ⟨trivial, spelled_nil⟩⟩
  simp only [SchemaDef.words, spelled_append_iff, spelled_cons_iff]
  exact ⟨⟨⟨⟨spelled_description _, front⟩, keyword, spelled_nil⟩,
    spelled_directives h.directives⟩, body⟩

theorem isName_directiveLocation : ∀ location ∈ Grammar.directiveLocations, IsName location := by
  decide

theorem DirectiveDef.spelled {directive : DirectiveDef} (h : directive.WellFormed) :
    Spelled directive.words := by
  have keyword : IsName "directive" ∧ IsName "on" := by decide
  have repeats : Spelled (if directive.repeatable then [Word.name "repeatable"] else []) := by
    split
    · exact spelled_cons_iff.mpr ⟨Word.wellFormed_name (by decide), spelled_nil⟩
    · exact spelled_nil
  have locations : Spelled (Word.separated .pipe directive.locations) :=
    spelled_separated fun location member =>
      isName_directiveLocation location (h.locations location member)
  simp only [DirectiveDef.words, spelled_append_iff, spelled_cons_iff]
  exact ⟨⟨⟨⟨⟨spelled_description _, keyword.1, trivial, h.name, spelled_nil⟩,
    spelled_inputValues h.args⟩, repeats⟩, keyword.2, spelled_nil⟩, locations⟩

theorem Definition.spelled {definition : Definition} (h : definition.WellFormed) :
    Spelled definition.words := by
  cases definition with
  | schema root => exact SchemaDef.spelled h
  | type declared => exact TypeDef.spelled h
  | extend added => exact spelled_cons_iff.mpr ⟨Word.wellFormed_name (by decide), TypeDef.spelled h.1⟩
  | directive declared => exact DirectiveDef.spelled h

/-- The canonical text of a well-formed document lexes to the tokens of its words. -/
theorem Document.lexes_canonical {doc : Document} (h : doc.WellFormed) :
    Lexes doc.canonical.toList (Word.tokens doc.words ++ [.eof]) :=
  lexes_words (spelled_flatMap fun definition member => Definition.spelled (h definition member))

end SchemaCompiler
