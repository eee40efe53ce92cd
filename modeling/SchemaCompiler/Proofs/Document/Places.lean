import SchemaCompiler.Proofs.Source.Standing
import SchemaCompiler.Proofs.Grammar.Finding
import SchemaCompiler.Proofs.Document.Appending

/-!
Where the parts of a document stand.

The places in a document are those of its landmarks: the keyword of each definition, the name of
each field, argument, input field and enum value, the word of each operation and the mark in front
of each directive use. What tokens spell has its landmarks among them, in the same order.
-/

namespace SchemaCompiler

/-! ## Landmarks -/

def DirectiveUse.landmark (use : DirectiveUse) : Token := ⟨.punct .atSign, use.position⟩

def InputValue.landmarks (value : InputValue) : List Token :=
  ⟨.name value.name, value.position⟩ :: value.directives.map DirectiveUse.landmark

def Field.landmarks (field : Field) : List Token :=
  ⟨.name field.name, field.position⟩ ::
    (field.args.flatMap InputValue.landmarks ++ field.directives.map DirectiveUse.landmark)

def EnumValue.landmarks (value : EnumValue) : List Token :=
  ⟨.name value.name, value.position⟩ :: value.directives.map DirectiveUse.landmark

def TypeKind.landmarks : TypeKind → List Token
  | scalar | union _ => []
  | object _ fields | interface _ fields => fields.flatMap Field.landmarks
  | enum values => values.flatMap EnumValue.landmarks
  | inputObject fields => fields.flatMap InputValue.landmarks

def TypeDef.landmarks (type : TypeDef) : List Token :=
  ⟨.name type.kind.keyword, type.position⟩ ::
    (type.directives.map DirectiveUse.landmark ++ type.kind.landmarks)

def OperationType.landmark (operation : OperationType) : Token :=
  ⟨.name operation.operation.keyword, operation.position⟩

def SchemaDef.landmarks (schema : SchemaDef) : List Token :=
  ⟨.name "schema", schema.position⟩ ::
    (schema.directives.map DirectiveUse.landmark ++ schema.operations.map OperationType.landmark)

def DirectiveDef.landmarks (directive : DirectiveDef) : List Token :=
  ⟨.name "directive", directive.position⟩ :: directive.args.flatMap InputValue.landmarks

def Definition.landmarks : Definition → List Token
  | schema root => root.landmarks
  | type declared | extend declared => declared.landmarks
  | directive declared => declared.landmarks

namespace Grammar

/-- In front of the rest, the tokens hold the landmarks in order. -/
def Shows (landmarks ts rest : List Token) : Prop :=
  ∃ front, ts = front ++ rest ∧ landmarks.Sublist front

section

variable {ts mid rest landmarks landmarks' : List Token}

theorem shows_nothing (ts : List Token) : Shows [] ts ts := ⟨[], rfl, .slnil⟩

theorem Shows.skip (t : Token) (h : Shows landmarks ts rest) : Shows landmarks (t :: ts) rest := by
  obtain ⟨front, rfl, sublist⟩ := h
  exact ⟨t :: front, rfl, sublist.cons t⟩

theorem Shows.mark (t : Token) (h : Shows landmarks ts rest) :
    Shows (t :: landmarks) (t :: ts) rest := by
  obtain ⟨front, rfl, sublist⟩ := h
  exact ⟨t :: front, rfl, sublist.cons_cons t⟩

theorem Shows.trans (h : Shows landmarks ts mid) (h' : Shows landmarks' mid rest) :
    Shows (landmarks ++ landmarks') ts rest := by
  obtain ⟨front, rfl, sublist⟩ := h
  obtain ⟨front', rfl, sublist'⟩ := h'
  exact ⟨front ++ front', (List.append_assoc front front' rest).symm, sublist.append sublist'⟩

/-- What has no landmarks may stand in front of what has some. -/
theorem Shows.after (h : Shows landmarks mid rest) (h' : Shows [] ts mid) :
    Shows landmarks ts rest := h'.trans h

end

/-! ## Repetition -/

section

variable {α : Type} {spells : List Token → α → List Token → Prop} {landmarks : α → List Token}
  {ts rest : List Token} {items : List α}

theorem SpellsItems.shows {close : Punctuator}
    (each : ∀ ts a rest, spells ts a rest → Shows (landmarks a) ts rest)
    (h : SpellsItems spells close ts items rest) : Shows (items.flatMap landmarks) ts rest := by
  induction h with
  | close => exact (shows_nothing _).skip _
  | item spelled behind ih => exact (each _ _ _ spelled).trans ih

theorem SpellsBlock.shows {openMark close : Punctuator}
    (each : ∀ ts a rest, spells ts a rest → Shows (landmarks a) ts rest)
    (h : SpellsBlock spells openMark close ts items rest) :
    Shows (items.flatMap landmarks) ts rest := by
  cases h with
  | none => exact shows_nothing ts
  | some inside => exact (inside.shows each).skip _

theorem SpellsBars.shows (each : ∀ ts a rest, spells ts a rest → Shows (landmarks a) ts rest)
    (h : SpellsBars spells ts items rest) : Shows (items.flatMap landmarks) ts rest := by
  induction h with
  | last spelled => simpa using each _ _ _ spelled
  | more spelled behind ih =>
    have bar := (each _ _ _ spelled).trans ((shows_nothing _).skip _)
    rw [List.append_nil] at bar
    exact bar.trans ih

end

variable {ts rest : List Token}

theorem MayHave.shows {mark : Punctuator} (h : MayHave mark ts rest) : Shows [] ts rest := by
  cases h with
  | none => exact shows_nothing ts
  | some => exact (shows_nothing rest).skip _

theorem SpellsDescription.shows {text : Option String} (h : SpellsDescription ts text rest) :
    Shows [] ts rest := by
  cases h with
  | none => exact shows_nothing ts
  | some => exact (shows_nothing rest).skip _

/-! ## Type references and constants -/

theorem SpellsType.shows {ref : TypeRef} (h : SpellsType ts ref rest) : Shows [] ts rest := by
  induction h with
  | named => exact (shows_nothing _).skip _
  | list inside ih => exact (ih.trans ((shows_nothing _).skip _)).skip _
  | nonNull bare spelled ih => exact ih.trans ((shows_nothing _).skip _)

/-- Constants, entries, and the items of both are read together. -/
theorem SpellsConstant.shows {v : Value} (h : SpellsConstant ts v rest) : Shows [] ts rest := by
  refine @SpellsConstant.rec (fun ts _ rest _ => Shows [] ts rest)
    (fun ts _ rest _ => Shows [] ts rest) (fun ts _ rest _ => Shows [] ts rest)
    (fun ts _ rest _ => Shows [] ts rest) ?_ ?_ ?_ ?_ ?_ ?_ ?_ ?_ ?_ ?_ ?_ ts v rest h
  case refine_5 | refine_6 =>
    intro place rest rest' items inside shown
    exact shown.skip _
  case refine_7 =>
    intro name place place' rest rest' v constant shown
    exact (shown.skip _).skip _
  case refine_9 | refine_11 =>
    intro ts rest rest' first more spelled behind shown shown'
    exact shown.trans shown'
  all_goals
    intros
    exact (shows_nothing _).skip _

/-! ## Directives and arguments -/

theorem SpellsArgument.shows {arg : Argument} (h : SpellsArgument ts arg rest) :
    Shows [] ts rest := by
  cases h with
  | argument constant => exact (constant.shows.skip _).skip _

theorem SpellsUses.shows {uses : List DirectiveUse} (h : SpellsUses ts uses rest) :
    Shows (uses.map DirectiveUse.landmark) ts rest := by
  induction h with
  | none => exact shows_nothing _
  | @use name place place' rest rest' rest'' args more arguments behind ih =>
    have inside : Shows (args.flatMap fun _ => []) rest rest' :=
      arguments.shows fun ts arg rest h => h.shows
    rw [List.flatMap_eq_nil_iff.mpr fun _ _ => rfl] at inside
    exact (ih.after (inside.skip _)).mark _

theorem SpellsDefault.shows {default : Option Value} (h : SpellsDefault ts default rest) :
    Shows [] ts rest := by
  cases h with
  | none => exact shows_nothing ts
  | some constant => exact constant.shows.skip _

theorem SpellsInput.shows {value : InputValue} (h : SpellsInput ts value rest) :
    Shows value.landmarks ts rest := by
  cases h with
  | input described type constant directives =>
    have behind := (directives.shows.after constant.shows).after type.shows
    exact Shows.after ((behind.skip _).mark _) described.shows

theorem SpellsField.shows {field : Field} (h : SpellsField ts field rest) :
    Shows field.landmarks ts rest := by
  cases h with
  | field described arguments type directives =>
    have inputs := arguments.shows fun ts value rest h => SpellsInput.shows h
    have behind := directives.shows.after type.shows
    exact Shows.after ((inputs.trans (behind.skip _)).mark _) described.shows

theorem SpellsEnumValue.shows {value : EnumValue} (h : SpellsEnumValue ts value rest) :
    Shows value.landmarks ts rest := by
  cases h with
  | enumValue free described directives =>
    exact Shows.after (directives.shows.mark _) described.shows

/-! ## Definitions -/

theorem SpellsMoreInterfaces.shows {names : List String} (h : SpellsMoreInterfaces ts names rest) :
    Shows [] ts rest := by
  induction h with
  | none => exact shows_nothing _
  | marked behind ih => exact (ih.skip _).skip _
  | bare free apart behind ih => exact ih.skip _

theorem SpellsInterfaces.shows {names : List String} (h : SpellsInterfaces ts names rest) :
    Shows [] ts rest := by
  cases h with
  | none => exact shows_nothing ts
  | some mark behind => exact (mark.shows.trans (behind.shows.skip _)).skip _

/-- Names between bars have no landmarks. -/
theorem SpellsBars.shows_nil {spells : List Token → String → List Token → Prop}
    (each : ∀ ts name rest, spells ts name rest → Shows [] ts rest) {names : List String}
    (h : SpellsBars spells ts names rest) : Shows [] ts rest := by
  have shown : Shows (names.flatMap fun _ => []) ts rest := h.shows each
  rwa [List.flatMap_eq_nil_iff.mpr fun _ _ => rfl] at shown

theorem SpellsMembers.shows {members : List String} (h : SpellsMembers ts members rest) :
    Shows [] ts rest := by
  cases h with
  | none => exact shows_nothing ts
  | some bar names =>
    have shown := names.shows_nil fun ts name rest h => by
      cases h
      exact (shows_nothing _).skip _
    exact (bar.shows.trans shown).skip _

theorem SpellsKind.shows {uses : List DirectiveUse} {kind : TypeKind}
    (h : SpellsKind ts uses kind rest) :
    Shows (uses.map DirectiveUse.landmark ++ kind.landmarks) ts rest := by
  cases h with
  | scalar directives => exact directives.shows.trans (shows_nothing rest)
  | object names directives inside | interface names directives inside =>
    have fields := inside.shows fun ts field rest h => SpellsField.shows h
    exact (directives.shows.trans fields).after names.shows
  | union directives names => exact directives.shows.trans names.shows
  | enum directives inside =>
    exact directives.shows.trans (inside.shows fun ts value rest h => SpellsEnumValue.shows h)
  | inputObject directives inside =>
    exact directives.shows.trans (inside.shows fun ts value rest h => SpellsInput.shows h)

theorem SpellsTypeDef.shows {text : Option String} {type : TypeDef}
    (h : SpellsTypeDef text ts type rest) : Shows type.landmarks ts rest := by
  cases h with
  | typeDef body => exact (body.shows.skip _).mark _

theorem SpellsOperation.shows {operation : OperationType} (h : SpellsOperation ts operation rest) :
    Shows [operation.landmark] ts rest := by
  cases h with
  | operation known =>
    subst known
    exact (((shows_nothing rest).skip _).skip _).mark _

theorem SpellsOperations.shows {extension : Bool} {operations : List OperationType}
    (h : SpellsOperations extension ts operations rest) :
    Shows (operations.map OperationType.landmark) ts rest := by
  rw [List.map_eq_flatMap]
  cases h with
  | none => exact shows_nothing ts
  | some inside => exact (inside.shows fun ts operation rest h => SpellsOperation.shows h).skip _

theorem SpellsSchema.shows {text : Option String} {extension : Bool} {schema : SchemaDef}
    (h : SpellsSchema text extension ts schema rest) : Shows schema.landmarks ts rest := by
  cases h with
  | schema directives braces => exact (directives.shows.trans braces.shows).mark _

theorem SpellsRepeatable.shows {repeats : Bool} (h : SpellsRepeatable ts repeats rest) :
    Shows [] ts rest := by
  cases h with
  | no => exact shows_nothing ts
  | yes => exact (shows_nothing rest).skip _

theorem SpellsDirective.shows {text : Option String} {directive : DirectiveDef}
    (h : SpellsDirective text ts directive rest) : Shows directive.landmarks ts rest := by
  cases h with
  | directive arguments repetition bar names =>
    have inputs := arguments.shows fun ts value rest h => SpellsInput.shows h
    have locations := names.shows_nil fun ts name rest h => by
      cases h
      exact (shows_nothing _).skip _
    have behind := ((locations.after bar.shows).skip _).after repetition.shows
    have all := inputs.trans behind
    rw [List.append_nil] at all
    exact ((all.skip _).skip _).mark _

theorem SpellsDefinition.shows {definition : Definition} (h : SpellsDefinition ts definition rest) :
    Shows definition.landmarks ts rest := by
  cases h with
  | schema described spelled => exact spelled.shows.after described.shows
  | type described spelled => exact spelled.shows.after described.shows
  | directive described spelled => exact spelled.shows.after described.shows
  | extendSchema spelled => exact spelled.shows.skip _
  | extendType spelled => exact spelled.shows.skip _

theorem SpellsDefinitions.landmarks_sublist {found : List Definition}
    (h : SpellsDefinitions ts found) : (found.flatMap Definition.landmarks).Sublist ts := by
  induction h with
  | finish => exact List.nil_sublist _
  | definition spelled behind ih =>
    obtain ⟨front, rfl, sublist⟩ := spelled.shows
    exact sublist.append ih

end Grammar

open Lexer Grammar

/-- The definitions of a cut source are spelled by its tokens. -/
theorem Lexer.IsCut.spells_definitions {cs trailing : List Char} {pieces : List Piece}
    (cut : IsCut cs pieces trailing) {found : List Definition}
    (read : definitions (placed .start pieces trailing) = .ok found) :
    SpellsDefinitions (placed .start pieces trailing) found := by
  rw [placed_eq] at read ⊢
  generalize (behindPieces .start pieces).advance trailing = place at read ⊢
  have joined : Joined id [⟨.eof, place⟩] (lexemesAt .start pieces ++ [⟨.eof, place⟩]) _ :=
    joined_append (cut.lexemes_inside .start) place
  exact Grammar.spells_definitions joined read

/-- In a source of fewer than 2^32 characters, every token stands at its first character, a lexical
fault at the lexeme or the escape it is about, and what a document says at the token that the grammar
names for it. -/
theorem places_exact (source : String) (short : source.length < UInt32.size) :
    (∀ tokens, tokenize source = .ok tokens →
      ∃ pieces trailing, IsCut source.toList pieces trailing ∧
        TokensStand source.toList pieces tokens) ∧
    (∀ place fault, tokenize source = .error (place, fault) →
      FaultStands source.toList place fault) ∧
    ∀ name path doc, Document.ofSource name path source = .ok doc →
      ∃ tokens, tokenize source = .ok tokens ∧ SpellsDefinitions tokens doc.definitions ∧
        (doc.definitions.flatMap Definition.landmarks).Sublist tokens := by
  rw [← String.length_toList] at short
  refine ⟨?_, fun place fault failed => faultStands_of_tokensFrom failed short, ?_⟩
  · intro tokens tokenized
    obtain ⟨pieces, trailing, cut, rfl⟩ := exists_isCut_of_tokensFrom tokenized
    exact ⟨pieces, trailing, cut, cut.tokensStand short⟩
  · intro name path doc said
    obtain ⟨pieces, trailing, cut, read⟩ := Document.ofSource_eq_ok said
    have spelled := cut.spells_definitions read
    exact ⟨_, cut.tokensFrom_eq .start, spelled, spelled.landmarks_sublist⟩

/-- Both ends of a line, an extension, and an escape behind a sound one. -/
theorem places_exact_extension :
    let doc : Document :=
      let input : InputValue := ⟨"x", none, .named "Int", none, [], ⟨3, 5⟩⟩
      let field : Field := ⟨"f", none, [input], .list (.named "B"), [], ⟨3, 3⟩⟩
      ⟨"a", "a.gql", [.extend ⟨"A", none, [⟨"d", [], ⟨2, 15⟩⟩], .object [] [field], ⟨2, 8⟩⟩]⟩
    Document.ofSource "a" "a.gql" "#\r\nextend type A @d \x7b\r  f(x: Int): [B]\n\x7d" = .ok doc ∧
      (∃ tokens, SpellsDefinitions tokens doc.definitions ∧
        [⟨.name "type", ⟨2, 8⟩⟩, ⟨.punct .atSign, ⟨2, 15⟩⟩, ⟨.name "f", ⟨3, 3⟩⟩,
          ⟨.name "x", ⟨3, 5⟩⟩].Sublist tokens) ∧
      FaultStands "x \"\\t\\q\"".toList ⟨1, 6⟩ (.invalidEscape 'q') := by
  intro doc
  have said : Document.ofSource "a" "a.gql" "#\r\nextend type A @d \x7b\r  f(x: Int): [B]\n\x7d" =
      .ok doc := by
    with_unfolding_all rfl
  have failed : tokenize "x \"\\t\\q\"" = .error (⟨1, 6⟩, .invalidEscape 'q') := by
    with_unfolding_all rfl
  obtain ⟨tokens, -, spelled, sublist⟩ := (places_exact _ (by decide)).2.2 _ _ _ said
  exact ⟨said, ⟨tokens, spelled, sublist⟩, (places_exact _ (by decide)).2.1 _ _ failed⟩

end SchemaCompiler
