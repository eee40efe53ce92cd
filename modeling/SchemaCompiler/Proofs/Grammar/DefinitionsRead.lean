import SchemaCompiler.Proofs.Grammar.PiecesRead

/-!
Canonical definitions read back.

No keyword is reserved, so what ends a definition is the beginning of the next one: a description,
one of the words that begin a definition, or the end of the source. None of these goes on with a
definition whose body is left out.
-/

namespace SchemaCompiler.Grammar

/-! ## Between definitions -/

/-- The next token begins a definition or ends the source. -/
inductive StartsDefinition : List TokenKind → Prop where
  | eof (kinds : List TokenKind) : StartsDefinition (.eof :: kinds)
  | described (text : String) (kinds : List TokenKind) : StartsDefinition (.string text :: kinds)
  | keyword {word : String} (known : word ∈ definitionKeywords) (kinds : List TokenKind) :
    StartsDefinition (.name word :: kinds)

namespace StartsDefinition

variable {kinds : List TokenKind}

theorem no_mark (starts : StartsDefinition kinds) (mark : Punctuator) :
    NotNext (.punct mark) kinds := by
  cases starts <;> exact notNext_cons (by simp) _

theorem endsDirectives (starts : StartsDefinition kinds) : EndsDirectives kinds :=
  ⟨starts.no_mark _, starts.no_mark _⟩

/-- In front of a body in braces, left out or not, no directive goes on. -/
theorem endsDirectives_block (starts : StartsDefinition kinds) {α : Type} (words : α → List Word)
    (items : List α) :
    EndsDirectives (Word.tokens (Word.block .braceOpen .braceClose words items) ++ kinds) := by
  rw [tokens_block]
  split
  · exact starts.endsDirectives
  · exact ⟨notNext_cons (by decide) _, notNext_cons (by decide) _⟩

end StartsDefinition

/-! ## Lists of names -/

/-- Further names, each behind a mark. -/
def moreNames (mark : Punctuator) (names : List String) : List TokenKind :=
  names.flatMap fun name => [.punct mark, .name name]

theorem tokens_separated (mark : Punctuator) (name : String) (names : List String) :
    Word.tokens (Word.separated mark (name :: names)) = .name name :: moreNames mark names := by
  induction names generalizing name with
  | nil => rfl
  | cons next names ih =>
    rw [Word.separated, tokens_cons, tokens_cons, ih]
    · rfl
    · simp

theorem barSeparated_reads {item : (ts : List Token) → Parse String ts} {name : String}
    {names : List String}
    (each : ∀ word ∈ name :: names, ∀ behind, Reads item id word [.name word] behind)
    {behind : List TokenKind} (other : NotNext (.punct .pipe) behind) :
    Reads (barSeparated item) id (name :: names) (.name name :: moreNames .pipe names) behind := by
  induction names generalizing name with
  | nil =>
    intro ts shape
    obtain ⟨found, rest, read, shape₁, same⟩ := each name List.mem_cons_self behind ts shape
    obtain rfl : name = found := same.symm
    have absent : takeMark? .pipe rest = none := takeMark?_none (shape₁ ▸ other)
    refine ⟨[name], rest, ?_, shape₁, rfl⟩
    rw [barSeparated]
    refine read.bind fun _ => ?_
    simp only [absent]
    exact yields_ok
  | cons next names ih =>
    intro ts shape
    obtain ⟨found, rest, read, shape₁, same⟩ := each name List.mem_cons_self _ ts shape
    obtain rfl : name = found := same.symm
    obtain ⟨place, rest₁, less, taken, shape₂⟩ := takeMark?_next shape₁
    obtain ⟨more, rest₂, read', shape₃, same⟩ :=
      ih (fun word member => each word (List.mem_cons_of_mem _ member)) rest₁ shape₂
    obtain rfl : next :: names = more := same.symm
    refine ⟨name :: next :: names, rest₂, ?_, shape₃, rfl⟩
    rw [barSeparated]
    refine read.bind fun _ => ?_
    simp only [taken]
    exact read'.bind fun _ => yields_ok

/-! ## Interfaces -/

/-- No interface name goes on here. -/
structure EndsInterfaces (kinds : List TokenKind) : Prop where
  ampersand : NotNext (.punct .ampersand) kinds
  names : ∀ word, kinds.head? = some (.name word) → word ∈ definitionKeywords

theorem StartsDefinition.endsInterfaces {kinds : List TokenKind} (starts : StartsDefinition kinds) :
    EndsInterfaces kinds := by
  refine ⟨starts.no_mark _, fun word first => ?_⟩
  cases starts with
  | eof kinds => cases first
  | described text kinds => cases first
  | keyword known kinds =>
    cases first
    exact known

theorem endsInterfaces_mark {mark : Punctuator} (different : mark ≠ .ampersand)
    (kinds : List TokenKind) : EndsInterfaces (.punct mark :: kinds) :=
  ⟨notNext_cons (by simpa using different) _, by simp⟩

theorem moreInterfaces_reads (names : List String) {behind : List TokenKind}
    (ends : EndsInterfaces behind) :
    Reads moreInterfaces id names (moreNames .ampersand names) behind := by
  induction names with
  | nil =>
    intro ts shape
    refine ⟨[], ts, ?_, shape, rfl⟩
    unfold moreInterfaces
    split
    · exact absurd (congrArg List.head? shape).symm ends.ampersand
    · next name position rest =>
      have known : definitionKeywords.contains name = true := by
        rw [List.contains_iff_mem]
        exact ends.names name (congrArg List.head? shape).symm
      rw [known, Bool.true_or, if_pos rfl]
      exact yields_ok
    · exact yields_ok
  | cons name names ih =>
    intro ts shape
    obtain ⟨place, rest, rfl, shape₁⟩ := kindsOf_eq_cons shape
    obtain ⟨place', rest₁, read, shape₂⟩ := expectName_next shape₁
    obtain ⟨more, rest₂, read', shape₃, same⟩ := ih rest₁ shape₂
    obtain rfl : names = more := same.symm
    refine ⟨name :: names, rest₂, ?_, shape₃, rfl⟩
    rw [moreInterfaces]
    exact read.bind fun _ => read'.bind fun _ => yields_ok

theorem implements_reads (interfaces : List String) {behind : List TokenKind}
    (ends : EndsInterfaces behind) (other : NotNext (.name "implements") behind) :
    Reads implements id interfaces
      (Word.tokens (Word.listing (.name "implements") .ampersand interfaces)) behind := by
  intro ts shape
  cases interfaces with
  | nil =>
    have absent : takeKeyword? "implements" ts = none := takeKeyword?_none (shape ▸ other)
    refine ⟨[], ts, ?_, shape, rfl⟩
    rw [implements, absent]
    exact yields_ok
  | cons name names =>
    rw [Word.listing, tokens_cons, tokens_separated] at shape
    · obtain ⟨place, rest, less, taken, shape₁⟩ := takeKeyword?_next shape
      obtain ⟨place', rest₁, read, shape₂⟩ := expectName_next (skipMark_name .ampersand shape₁)
      obtain ⟨more, rest₂, read', shape₃, same⟩ := moreInterfaces_reads names ends rest₁ shape₂
      obtain rfl : names = more := same.symm
      refine ⟨name :: names, rest₂, ?_, shape₃, rfl⟩
      rw [implements, taken]
      exact read.bind fun _ => read'.bind fun _ => yields_ok
    · simp

/-! ## Types -/

theorem unionMember_reads (name : String) (behind : List TokenKind) :
    Reads unionMember id name [.name name] behind := by
  intro ts shape
  obtain ⟨place, rest, read, shape₁⟩ := expectName_next shape
  exact ⟨name, rest, read.bind fun _ => yields_ok, shape₁, rfl⟩

theorem unionMembers_reads (members : List String) {behind : List TokenKind}
    (starts : StartsDefinition behind) :
    Reads unionMembers id members (Word.tokens (Word.listing (.mark .equals) .pipe members))
      behind := by
  intro ts shape
  cases members with
  | nil =>
    have absent : takeMark? .equals ts = none := takeMark?_none (shape ▸ starts.no_mark _)
    refine ⟨[], ts, ?_, shape, rfl⟩
    rw [unionMembers, absent]
    exact yields_ok
  | cons name names =>
    rw [Word.listing, tokens_cons, tokens_separated] at shape
    · obtain ⟨place, rest, less, taken, shape₁⟩ := takeMark?_next shape
      obtain ⟨found, rest₁, read, shape₂, same⟩ := barSeparated_reads
        (fun word _ => unionMember_reads word) (starts.no_mark _) _ (skipMark_name .pipe shape₁)
      obtain rfl : name :: names = found := same.symm
      refine ⟨name :: names, rest₁, ?_, shape₂, rfl⟩
      rw [unionMembers, taken]
      exact read.bind fun _ => yields_ok
    · simp

/-- The directives and the kind of a type, up to positions. -/
def bodyLook (body : List DirectiveUse × TypeKind) : List DirectiveUse × TypeKind :=
  (body.1.map DirectiveUse.unplaced, body.2.unplaced)

section

variable {directives : List DirectiveUse} (h : ∀ use ∈ directives, use.WellFormed)
  {behind : List TokenKind} (starts : StartsDefinition behind)
include h starts

/-- The interfaces, directives and fields of a type read in turn. -/
theorem fieldsBody_reads (interfaces : List String) {fields : List Field}
    (good : ∀ field ∈ fields, field.WellFormed) {ts : List Token}
    (shape : kindsOf ts = Word.tokens (Word.listing (.name "implements") .ampersand interfaces) ++
      (Word.tokens (directives.flatMap DirectiveUse.words) ++
        (Word.tokens (Word.block .braceOpen .braceClose Field.words fields) ++ behind))) :
    ∃ rest₁ uses rest₂ found rest₃, Yields (implements ts) interfaces rest₁ ∧
      Yields (directiveUses rest₁) uses rest₂ ∧
      Yields (optionalBlock .braceOpen .braceClose field rest₂) found rest₃ ∧
      kindsOf rest₃ = behind ∧ uses.map DirectiveUse.unplaced = directives.map DirectiveUse.unplaced ∧
      found.map Field.unplaced = fields.map Field.unplaced := by
  have ends_directives := starts.endsDirectives_block Field.words fields
  have ends_interfaces : EndsInterfaces (Word.tokens (directives.flatMap DirectiveUse.words) ++
      (Word.tokens (Word.block .braceOpen .braceClose Field.words fields) ++ behind)) := by
    cases directives with
    | cons use uses =>
      rw [List.flatMap_cons, tokens_append, directiveUse_tokens]
      exact endsInterfaces_mark (by decide) _
    | nil =>
      rw [List.flatMap_nil, tokens_nil, List.nil_append, tokens_block]
      split
      · exact starts.endsInterfaces
      · exact endsInterfaces_mark (by decide) _
  have no_implements : NotNext (.name "implements")
      (Word.tokens (directives.flatMap DirectiveUse.words) ++
        (Word.tokens (Word.block .braceOpen .braceClose Field.words fields) ++ behind)) := by
    intro first
    exact absurd (ends_interfaces.names _ first) (by decide)
  obtain ⟨names, rest₁, read₁, shape₁, same⟩ :=
    implements_reads interfaces ends_interfaces no_implements ts shape
  obtain rfl : interfaces = names := same.symm
  obtain ⟨uses, rest₂, read₂, shape₂, same₂⟩ := directiveUses_reads h ends_directives rest₁ shape₁
  obtain ⟨found, rest₃, read₃, shape₃, same₃⟩ := optionalBlock_reads (.inr rfl)
    (fun field _ => field_begins field)
    (fun field member _ ends => field_reads (good field member) ends) (starts.no_mark _) rest₂ shape₂
  exact ⟨rest₁, uses, rest₂, found, rest₃, read₁, read₂, read₃, shape₃, same₂, same₃⟩

theorem typeBody_reads {kind : TypeKind} (good : kind.WellFormed) (place : Position) :
    Reads (typeBody kind.keyword place) bodyLook (directives, kind)
      (Word.tokens kind.interfaceWords ++ (Word.tokens (directives.flatMap DirectiveUse.words) ++
        Word.tokens kind.bodyWords)) behind := by
  intro ts shape
  rw [List.append_assoc, List.append_assoc] at shape
  cases kind with
  | scalar =>
    obtain ⟨uses, rest, read, shape₁, same⟩ := directiveUses_reads h starts.endsDirectives ts shape
    refine ⟨(uses, .scalar), rest, ?_, shape₁, by rw [bodyLook, bodyLook, same]⟩
    rw [TypeKind.keyword, typeBody]
    exact read.bind fun _ => yields_ok
  | object interfaces fields =>
    obtain ⟨rest₁, uses, rest₂, found, rest₃, read₁, read₂, read₃, shape₃, same, same'⟩ :=
      fieldsBody_reads h starts interfaces good.2 shape
    refine ⟨(uses, .object interfaces found), rest₃, ?_, shape₃, ?_⟩
    · rw [TypeKind.keyword, typeBody]
      exact read₁.bind fun _ => read₂.bind fun _ => read₃.bind fun _ => yields_ok
    · simp only [bodyLook, TypeKind.unplaced, same, same']
  | interface interfaces fields =>
    obtain ⟨rest₁, uses, rest₂, found, rest₃, read₁, read₂, read₃, shape₃, same, same'⟩ :=
      fieldsBody_reads h starts interfaces good.2 shape
    refine ⟨(uses, .interface interfaces found), rest₃, ?_, shape₃, ?_⟩
    · rw [TypeKind.keyword, typeBody]
      exact read₁.bind fun _ => read₂.bind fun _ => read₃.bind fun _ => yields_ok
    · simp only [bodyLook, TypeKind.unplaced, same, same']
  | union members =>
    have ends : EndsDirectives
        (Word.tokens (Word.listing (.mark .equals) .pipe members) ++ behind) := by
      cases members with
      | nil => exact starts.endsDirectives
      | cons name names => exact ⟨notNext_cons (by decide) _, notNext_cons (by decide) _⟩
    obtain ⟨uses, rest₁, read₁, shape₁, same⟩ := directiveUses_reads h ends ts shape
    obtain ⟨found, rest₂, read₂, shape₂, same₂⟩ := unionMembers_reads members starts rest₁ shape₁
    obtain rfl : members = found := same₂.symm
    refine ⟨(uses, .union members), rest₂, ?_, shape₂, by rw [bodyLook, bodyLook, same]⟩
    rw [TypeKind.keyword, typeBody]
    exact read₁.bind fun _ => read₂.bind fun _ => yields_ok
  | enum values =>
    have ends := starts.endsDirectives_block EnumValue.words values
    obtain ⟨uses, rest₁, read₁, shape₁, same⟩ := directiveUses_reads h ends ts shape
    obtain ⟨found, rest₂, read₂, shape₂, same₂⟩ := optionalBlock_reads (.inr rfl)
      (fun value _ => enumValue_begins value)
      (fun value member _ ends => enumValue_reads (good value member) ends) (starts.no_mark _) rest₁
      shape₁
    refine ⟨(uses, .enum found), rest₂, ?_, shape₂, ?_⟩
    · rw [TypeKind.keyword, typeBody]
      exact read₁.bind fun _ => read₂.bind fun _ => yields_ok
    · simp only [bodyLook, TypeKind.unplaced, same, same₂]
  | inputObject fields =>
    have ends := starts.endsDirectives_block InputValue.words fields
    obtain ⟨uses, rest₁, read₁, shape₁, same⟩ := directiveUses_reads h ends ts shape
    obtain ⟨found, rest₂, read₂, shape₂, same₂⟩ :=
      inputValues_read good (.inr rfl) (starts.no_mark _) rest₁ shape₁
    refine ⟨(uses, .inputObject found), rest₂, ?_, shape₂, ?_⟩
    · rw [TypeKind.keyword, typeBody]
      exact read₁.bind fun _ => read₂.bind fun _ => yields_ok
    · simp only [bodyLook, TypeKind.unplaced, same, same₂]

end

/-- The kinds of a type without its description. -/
def typeKinds (type : TypeDef) : List TokenKind :=
  .name type.kind.keyword :: .name type.name :: (Word.tokens type.kind.interfaceWords ++
    (Word.tokens (type.directives.flatMap DirectiveUse.words) ++ Word.tokens type.kind.bodyWords))

theorem typeDef_tokens (type : TypeDef) :
    Word.tokens type.words = descriptionKinds type.description ++ typeKinds type := by
  simp only [TypeDef.words, tokens_append, tokens_description, tokens_cons, Word.kinds, typeKinds,
    List.append_assoc, List.cons_append, List.nil_append]

theorem typeDef_reads {type : TypeDef} (h : type.WellFormed) {behind : List TokenKind}
    (starts : StartsDefinition behind) :
    Reads (typeDef type.description) TypeDef.unplaced type (typeKinds type) behind := by
  intro ts shape
  obtain ⟨place, rest₁, keyword_read, shape₁⟩ := expectName_next shape
  obtain ⟨place', rest₂, name_read, shape₂⟩ := expectName_next shape₁
  obtain ⟨⟨uses, kind⟩, rest₃, body_read, shape₃, same⟩ :=
    typeBody_reads h.directives starts h.kind place rest₂ shape₂
  obtain ⟨same_uses, same_kind⟩ := Prod.mk.inj same
  refine ⟨⟨type.name, type.description, uses, kind, place⟩, rest₃, ?_, shape₃, ?_⟩
  · exact keyword_read.bind fun _ => name_read.bind fun _ => body_read.bind fun _ => yields_ok
  · simp only [TypeDef.unplaced]
    rw [same_uses, same_kind]

/-! ## Schemas -/

/-- The kinds of a schema behind its description and the word `extend`. -/
def schemaKinds (schema : SchemaDef) : List TokenKind :=
  .name "schema" :: (Word.tokens (schema.directives.flatMap DirectiveUse.words) ++
    Word.tokens schema.operationWords)

theorem schemaDef_tokens (schema : SchemaDef) :
    Word.tokens schema.words = descriptionKinds schema.description ++
      ((if schema.extension then [.name "extend"] else []) ++ schemaKinds schema) := by
  simp only [SchemaDef.words, tokens_append, tokens_description, tokens_cons, Word.kinds,
    schemaKinds, List.append_assoc, List.cons_append, List.nil_append]
  cases schema.extension <;> rfl

theorem operationTypes_braces {operations : List OperationType} {extension : Bool}
    {behind : List TokenKind} :
    Reads (operationTypes extension) (List.map OperationType.unplaced) operations
      (.punct .braceOpen :: (operations.flatMap (fun operation => Word.tokens operation.words) ++
        [.punct .braceClose])) behind := by
  intro ts shape
  rw [List.cons_append, List.append_assoc] at shape
  obtain ⟨place, rest₁, less, taken, shape₁⟩ := takeMark?_next shape
  have open_read : Yields (expectMark .braceOpen ts) place rest₁ := ⟨less, by rw [expectMark, taken]⟩
  obtain ⟨found, rest₂, read, shape₂, same⟩ := itemsUntil_reads (fun _ => True)
    (fun operation _ more => operationType_begins operation _ more)
    (fun operation _ after _ => operationType_reads operation after)
    (fun _ _ _ => trivial) trivial (Nat.le_refl rest₁.length) shape₁
  refine ⟨found, rest₂, ?_, shape₂, same⟩
  rw [operationTypes, taken]
  cases extension <;> exact open_read.bind fun _ => read.bind fun _ => yields_ok

theorem operationTypes_reads (schema : SchemaDef) {behind : List TokenKind}
    (starts : StartsDefinition behind) :
    Reads (operationTypes schema.extension) (List.map OperationType.unplaced) schema.operations
      (Word.tokens schema.operationWords) behind := by
  have braces := @operationTypes_braces schema.operations schema.extension behind
  have full : Word.tokens (.mark .braceOpen :: (schema.operations.flatMap OperationType.words ++
      [.mark .braceClose])) = .punct .braceOpen ::
        (schema.operations.flatMap (fun operation => Word.tokens operation.words) ++
          [.punct .braceClose]) := by
    rw [tokens_cons, tokens_append, tokens_flatMap]
    rfl
  unfold SchemaDef.operationWords
  by_cases added : schema.extension = true
  · rw [if_pos added, tokens_block]
    split
    · next none =>
      intro ts shape
      have absent : takeMark? .braceOpen ts = .none :=
        takeMark?_none (shape ▸ starts.no_mark _)
      refine ⟨[], ts, ?_, shape, by rw [none]⟩
      rw [operationTypes, absent, added]
      exact yields_ok
    · exact braces
  · rw [if_neg added, full]
    exact braces

theorem endsDirectives_operations (schema : SchemaDef) {behind : List TokenKind}
    (starts : StartsDefinition behind) :
    EndsDirectives (Word.tokens schema.operationWords ++ behind) := by
  unfold SchemaDef.operationWords
  split
  · exact starts.endsDirectives_block OperationType.words schema.operations
  · exact ⟨notNext_cons (by decide) _, notNext_cons (by decide) _⟩

theorem schemaDef_reads {schema : SchemaDef} (h : schema.WellFormed) {behind : List TokenKind}
    (starts : StartsDefinition behind) :
    Reads (schemaDef schema.description schema.extension) SchemaDef.unplaced schema
      (schemaKinds schema) behind := by
  intro ts shape
  rw [schemaKinds, List.cons_append, List.append_assoc] at shape
  obtain ⟨place, rest₁, keyword_read, shape₁⟩ := expectKeyword_next shape
  obtain ⟨uses, rest₂, uses_read, shape₂, same⟩ :=
    directiveUses_reads h.directives (endsDirectives_operations schema starts) rest₁ shape₁
  obtain ⟨operations, rest₃, operations_read, shape₃, same'⟩ :=
    operationTypes_reads schema starts rest₂ shape₂
  refine ⟨⟨schema.description, schema.extension, uses, operations, place⟩, rest₃, ?_, shape₃, ?_⟩
  · exact keyword_read.bind fun _ => uses_read.bind fun _ => operations_read.bind fun _ => yields_ok
  · simp only [SchemaDef.unplaced, same, same']

/-! ## Directives -/

/-- The kinds of a directive definition without its description. -/
def directiveKinds (directive : DirectiveDef) : List TokenKind :=
  .name "directive" :: .punct .atSign :: .name directive.name ::
    (Word.tokens (Word.block .parenOpen .parenClose InputValue.words directive.args) ++
      ((if directive.repeatable then [.name "repeatable"] else []) ++
        .name "on" :: Word.tokens (Word.separated .pipe directive.locations)))

theorem directiveDef_tokens (directive : DirectiveDef) :
    Word.tokens directive.words =
      descriptionKinds directive.description ++ directiveKinds directive := by
  simp only [DirectiveDef.words, tokens_append, tokens_description, tokens_cons, Word.kinds,
    directiveKinds, List.append_assoc, List.cons_append, List.nil_append]
  cases directive.repeatable <;> rfl

theorem directiveLocation_reads {location : String} (known : location ∈ directiveLocations)
    (behind : List TokenKind) : Reads directiveLocation id location [.name location] behind := by
  intro ts shape
  obtain ⟨place, rest, read, shape₁⟩ := expectName_next shape
  have listed : directiveLocations.contains location = true := List.contains_iff_mem.mpr known
  refine ⟨location, rest, ?_, shape₁, rfl⟩
  rw [directiveLocation]
  refine read.bind fun _ => ?_
  dsimp only
  rw [if_pos listed]
  exact yields_ok

theorem repeatable_reads (repeats : Bool) {ts : List Token} {behind : List TokenKind}
    (shape : kindsOf ts = (if repeats then [.name "repeatable"] else []) ++ .name "on" :: behind) :
    ∃ rest bound, repeatable ts = (repeats, ⟨rest, bound⟩) ∧ kindsOf rest = .name "on" :: behind := by
  cases repeats with
  | true =>
    obtain ⟨place, rest, less, taken, shape₁⟩ := takeKeyword?_next shape
    exact ⟨rest, Nat.le_of_lt less, by rw [repeatable, taken], shape₁⟩
  | false =>
    have absent : takeKeyword? "repeatable" ts = none := by
      apply takeKeyword?_none
      rw [shape]
      exact notNext_cons (by decide) _
    exact ⟨ts, Nat.le_refl _, by rw [repeatable, absent], shape⟩

theorem directiveDef_reads {directive : DirectiveDef} (h : directive.WellFormed)
    {behind : List TokenKind} (starts : StartsDefinition behind) :
    Reads (directiveDef directive.description) DirectiveDef.unplaced directive
      (directiveKinds directive) behind := by
  intro ts shape
  obtain ⟨name, description, args, repeats, locations, position⟩ := directive
  cases locations with
  | nil => exact absurd rfl h.located
  | cons location locations =>
    rw [directiveKinds, tokens_separated] at shape
    simp only [List.cons_append, List.append_assoc] at shape
    obtain ⟨place, rest₁, keyword_read, shape₁⟩ := expectKeyword_next shape
    obtain ⟨_, rest₂, mark_read, shape₂⟩ := expectMark_next shape₁
    obtain ⟨_, rest₃, name_read, shape₃⟩ := expectName_next shape₂
    have no_paren : NotNext (.punct .parenOpen)
        ((if repeats then [.name "repeatable"] else []) ++ .name "on" :: .name location ::
          (moreNames .pipe locations ++ behind)) := by
      cases repeats <;> exact notNext_cons (by simp) _
    obtain ⟨found, rest₄, args_read, shape₄, same⟩ :=
      inputValues_read h.args (.inl rfl) no_paren rest₃ shape₃
    obtain ⟨rest₅, bound₅, repeats_read, shape₅⟩ := repeatable_reads repeats shape₄
    obtain ⟨_, rest₆, on_read, shape₆⟩ := expectKeyword_next shape₅
    obtain ⟨listed, rest₇, locations_read, shape₇, same'⟩ := barSeparated_reads
      (fun word member => directiveLocation_reads (h.locations word member)) (starts.no_mark _) _
      (skipMark_name .pipe shape₆)
    obtain rfl : location :: locations = listed := same'.symm
    refine ⟨⟨name, description, found, repeats, location :: locations, place⟩, rest₇, ?_, shape₇, ?_⟩
    · refine keyword_read.bind fun _ => mark_read.bind fun _ => name_read.bind fun _ =>
        args_read.bind fun _ => ?_
      dsimp only
      rw [repeats_read]
      exact on_read.bind fun _ => locations_read.bind fun _ => yields_ok
    · simp only [DirectiveDef.unplaced, same]

/-! ## Definitions -/

/-- What a definition begins with behind its description: the word that decides what it is. -/
theorem definition_tokens (definition : Definition) :
    Word.tokens definition.words =
      match definition with
      | .schema root => descriptionKinds root.description ++
          ((if root.extension then [.name "extend"] else []) ++ schemaKinds root)
      | .type declared => descriptionKinds declared.description ++ typeKinds declared
      | .extend added =>
        .name "extend" :: (descriptionKinds added.description ++ typeKinds added)
      | .directive declared => descriptionKinds declared.description ++ directiveKinds declared := by
  cases definition with
  | schema root => exact schemaDef_tokens root
  | type declared => exact typeDef_tokens declared
  | extend added =>
    rw [Definition.words, tokens_cons, typeDef_tokens]
    rfl
  | directive declared => exact directiveDef_tokens declared

theorem next_kind {ts : List Token} {kind : TokenKind} {behind : List TokenKind}
    (shape : kindsOf ts = kind :: behind) : (next ts).kind = kind := by
  obtain ⟨place, rest, rfl, -⟩ := kindsOf_eq_cons shape
  rfl

theorem extension_type_reads {type : TypeDef} (h : type.WellFormed) (plain : type.description = none)
    {behind : List TokenKind} (starts : StartsDefinition behind) :
    Reads extension Definition.unplaced (.extend type) (typeKinds type) behind := by
  intro ts shape
  have absent : takeKeyword? "schema" ts = none := by
    apply takeKeyword?_none
    rw [shape]
    apply notNext_cons
    cases type.kind <;> simp [TypeKind.keyword]
  obtain ⟨found, rest, read, shape₁, same⟩ := typeDef_reads h starts ts shape
  rw [plain] at read
  refine ⟨.extend found, rest, ?_, shape₁, congrArg Definition.extend same⟩
  rw [extension, absent]
  exact read.bind fun _ => yields_ok

theorem extension_schema_reads {schema : SchemaDef} (h : schema.WellFormed)
    (added : schema.extension = true) {behind : List TokenKind}
    (starts : StartsDefinition behind) :
    Reads extension Definition.unplaced (.schema schema) (schemaKinds schema) behind := by
  intro ts shape
  obtain ⟨place, rest, less, taken, -⟩ := takeKeyword?_next shape
  obtain ⟨found, rest₁, read, shape₁, same⟩ := schemaDef_reads h starts ts shape
  rw [h.description added, added] at read
  refine ⟨.schema found, rest₁, ?_, shape₁, congrArg Definition.schema same⟩
  rw [extension, taken]
  exact read.bind fun _ => yields_ok

theorem definition_extend_reads {declared : Definition} {kinds behind : List TokenKind}
    (h : Reads extension Definition.unplaced declared kinds behind) :
    Reads definition Definition.unplaced declared (.name "extend" :: kinds) behind := by
  intro ts shape
  have plain : ∃ rest bound, description ts = (none, ⟨rest, bound⟩) ∧
      kindsOf rest = .name "extend" :: (kinds ++ behind) :=
    description_reads none shape (by simp)
  obtain ⟨rest, bound, described, shape₀⟩ := plain
  obtain ⟨place, rest₁, keyword_read, shape₁⟩ := expectKeyword_next shape₀
  obtain ⟨found, rest₂, read, shape₂, same⟩ := h rest₁ shape₁
  refine ⟨found, rest₂, ?_, shape₂, same⟩
  rw [definition, described]
  dsimp only
  rw [next_kind shape₀]
  exact keyword_read.bind fun _ => read.bind fun _ => yields_ok

theorem definition_reads {declared : Definition} (h : declared.WellFormed) {behind : List TokenKind}
    (starts : StartsDefinition behind) :
    Reads definition Definition.unplaced declared (Word.tokens declared.words) behind := by
  rw [definition_tokens]
  cases declared with
  | extend added =>
    have read := definition_extend_reads (extension_type_reads h.1 h.2 starts)
    simpa only [h.2, descriptionKinds, List.nil_append] using read
  | type declared =>
    intro ts shape
    rw [List.append_assoc] at shape
    obtain ⟨rest, bound, described, shape₀⟩ := description_reads _ shape (by simp [typeKinds])
    obtain ⟨found, rest₁, read, shape₁, same⟩ := typeDef_reads h starts rest shape₀
    refine ⟨.type found, rest₁, ?_, shape₁, congrArg Definition.type same⟩
    rw [definition, described]
    dsimp only
    rw [next_kind shape₀]
    cases declared.kind <;> exact read.bind fun _ => yields_ok
  | directive declared =>
    intro ts shape
    rw [List.append_assoc] at shape
    obtain ⟨rest, bound, described, shape₀⟩ := description_reads _ shape (by simp [directiveKinds])
    obtain ⟨found, rest₁, read, shape₁, same⟩ := directiveDef_reads h starts rest shape₀
    refine ⟨.directive found, rest₁, ?_, shape₁, congrArg Definition.directive same⟩
    rw [definition, described]
    dsimp only
    rw [next_kind shape₀]
    exact read.bind fun _ => yields_ok
  | schema root =>
    by_cases added : root.extension = true
    · have read := definition_extend_reads (extension_schema_reads h added starts)
      simpa only [h.description added, added, descriptionKinds, List.nil_append, if_true,
        List.singleton_append] using read
    · intro ts shape
      dsimp only at shape
      rw [if_neg added, List.nil_append, List.append_assoc] at shape
      obtain ⟨rest, bound, described, shape₀⟩ := description_reads _ shape (by simp [schemaKinds])
      obtain ⟨found, rest₁, read, shape₁, same⟩ := schemaDef_reads h starts rest shape₀
      rw [Bool.not_eq_true] at added
      rw [added] at read
      refine ⟨.schema found, rest₁, ?_, shape₁, congrArg Definition.schema same⟩
      rw [definition, described]
      dsimp only
      rw [next_kind shape₀]
      exact read.bind fun _ => yields_ok

/-- A definition begins with its description or with a word that begins definitions. -/
theorem definition_begins (declared : Definition) :
    ∃ text word kinds, word ∈ definitionKeywords ∧
      Word.tokens declared.words = descriptionKinds text ++ .name word :: kinds := by
  rw [definition_tokens]
  cases declared with
  | schema root =>
    dsimp only
    split
    · exact ⟨_, _, _, by decide, rfl⟩
    · exact ⟨_, _, _, by decide, rfl⟩
  | type declared =>
    refine ⟨_, _, _, ?_, rfl⟩
    cases declared.kind <;> simp only [TypeKind.keyword] <;> decide
  | extend added => exact ⟨none, _, _, by decide, rfl⟩
  | directive declared => exact ⟨_, _, _, by decide, rfl⟩

theorem definition_starts (declared : Definition) (more : List TokenKind) :
    StartsDefinition (Word.tokens declared.words ++ more) := by
  obtain ⟨text, word, kinds, known, shape⟩ := definition_begins declared
  rw [shape]
  cases text with
  | none => exact .keyword known _
  | some text => exact .described text _

/-- In front of a definition the source is not at its end. -/
theorem not_atEnd_of_definition (declared : Definition) {ts : List Token} {more : List TokenKind}
    (shape : kindsOf ts = Word.tokens declared.words ++ more) : ¬ atEnd ts = true := by
  obtain ⟨text, word, kinds, known, begins⟩ := definition_begins declared
  rw [begins] at shape
  cases text <;> simp [atEnd, next_kind shape]

theorem definitions_read {declared : List Definition} (h : ∀ each ∈ declared, each.WellFormed)
    {ts : List Token}
    (shape : kindsOf ts = Word.tokens (declared.flatMap Definition.words) ++ [.eof]) :
    ∃ found, definitions ts = .ok found ∧
      found.map Definition.unplaced = declared.map Definition.unplaced := by
  induction declared generalizing ts with
  | nil =>
    have finished : atEnd ts = true := by
      rw [atEnd, next_kind shape]
      rfl
    refine ⟨[], ?_, rfl⟩
    rw [definitions, if_pos finished]
  | cons first more ih =>
    obtain ⟨good, rest_good⟩ := List.forall_mem_cons.mp h
    rw [List.flatMap_cons, tokens_append, List.append_assoc] at shape
    have starts : StartsDefinition (Word.tokens (more.flatMap Definition.words) ++ [.eof]) := by
      cases more with
      | nil => exact .eof []
      | cons next more =>
        rw [List.flatMap_cons, tokens_append, List.append_assoc]
        exact definition_starts next _
    obtain ⟨found, rest, ⟨bound, read⟩, shape₁, same⟩ := definition_reads good starts ts shape
    obtain ⟨others, read', same'⟩ := ih rest_good shape₁
    have unfinished : ¬ atEnd ts = true := not_atEnd_of_definition first shape
    refine ⟨found :: others, ?_, by rw [List.map_cons, List.map_cons, same, same']⟩
    rw [definitions, if_neg unfinished, read]
    simp only [bind, Except.bind, read']
    rfl

end SchemaCompiler.Grammar
