import SchemaCompiler.Document.Grammar

/-!
The grammar of schema documents, with places.

Each predicate says of tokens that the first of them spell something and that the others stand
behind it. Where what is spelled has a place, the grammar names the token that has it: the keyword
of a definition, the name of a field, of an argument, of an input field, of an enum value or of an
operation, and the mark in front of a directive use. Nothing is said of how the tokens are read.
-/

namespace SchemaCompiler.Grammar

/-! ## Repetition -/

section

variable {α : Type} (item : List Token → α → List Token → Prop)

/-- Items up to a closing mark. -/
inductive SpellsItems (close : Punctuator) : List Token → List α → List Token → Prop where
  | close {place : Position} {rest : List Token} :
      SpellsItems close (⟨.punct close, place⟩ :: rest) [] rest
  | item {ts rest rest' : List Token} {first : α} {more : List α} (spelled : item ts first rest)
      (behind : SpellsItems close rest more rest') : SpellsItems close ts (first :: more) rest'

/-- Items between two marks, or nothing. -/
inductive SpellsBlock (openMark close : Punctuator) : List Token → List α → List Token → Prop where
  | none {ts : List Token} : SpellsBlock openMark close ts [] ts
  | some {place : Position} {rest rest' : List Token} {items : List α}
      (inside : SpellsItems item close rest items rest') :
      SpellsBlock openMark close (⟨.punct openMark, place⟩ :: rest) items rest'

/-- One item or more, with bars between them. -/
inductive SpellsBars : List Token → List α → List Token → Prop where
  | last {ts rest : List Token} {first : α} (spelled : item ts first rest) :
      SpellsBars ts [first] rest
  | more {ts rest rest' : List Token} {first : α} {others : List α} {place : Position}
      (spelled : item ts first (⟨.punct .pipe, place⟩ :: rest))
      (behind : SpellsBars rest others rest') : SpellsBars ts (first :: others) rest'

end

/-- A mark or nothing. -/
inductive MayHave (mark : Punctuator) : List Token → List Token → Prop where
  | none {ts : List Token} : MayHave mark ts ts
  | some {place : Position} {rest : List Token} : MayHave mark (⟨.punct mark, place⟩ :: rest) rest

inductive SpellsDescription : List Token → Option String → List Token → Prop where
  | none {ts : List Token} : SpellsDescription ts none ts
  | some {text : String} {place : Position} {rest : List Token} :
      SpellsDescription (⟨.string text, place⟩ :: rest) (some text) rest

/-! ## Type references and constants -/

inductive SpellsType : List Token → TypeRef → List Token → Prop where
  | named {name : String} {place : Position} {rest : List Token} :
      SpellsType (⟨.name name, place⟩ :: rest) (.named name) rest
  | list {place place' : Position} {rest rest' : List Token} {inner : TypeRef}
      (inside : SpellsType rest inner (⟨.punct .bracketClose, place'⟩ :: rest')) :
      SpellsType (⟨.punct .bracketOpen, place⟩ :: rest) (.list inner) rest'
  | nonNull {ts rest : List Token} {place : Position} {ref : TypeRef}
      (bare : ∀ inner, ref ≠ .nonNull inner)
      (spelled : SpellsType ts ref (⟨.punct .bang, place⟩ :: rest)) :
      SpellsType ts (.nonNull ref) rest

mutual

inductive SpellsConstant : List Token → Value → List Token → Prop where
  | int {text : String} {place : Position} {rest : List Token} :
      SpellsConstant (⟨.int text, place⟩ :: rest) (.int text) rest
  | float {text : String} {place : Position} {rest : List Token} :
      SpellsConstant (⟨.float text, place⟩ :: rest) (.float text) rest
  | string {text : String} {place : Position} {rest : List Token} :
      SpellsConstant (⟨.string text, place⟩ :: rest) (.string text) rest
  | name {name : String} {place : Position} {rest : List Token} :
      SpellsConstant (⟨.name name, place⟩ :: rest) (nameValue name) rest
  | list {place : Position} {rest rest' : List Token} {items : List Value}
      (inside : SpellsItems SpellsConstant .bracketClose rest items rest') :
      SpellsConstant (⟨.punct .bracketOpen, place⟩ :: rest) (.list items) rest'
  | object {place : Position} {rest rest' : List Token} {entries : List (String × Value)}
      (inside : SpellsItems SpellsEntry .braceClose rest entries rest') :
      SpellsConstant (⟨.punct .braceOpen, place⟩ :: rest) (.object entries) rest'

inductive SpellsEntry : List Token → String × Value → List Token → Prop where
  | entry {name : String} {place place' : Position} {rest rest' : List Token} {v : Value}
      (constant : SpellsConstant rest v rest') :
      SpellsEntry (⟨.name name, place⟩ :: ⟨.punct .colon, place'⟩ :: rest) (name, v) rest'

end

/-! ## Directives and arguments -/

inductive SpellsArgument : List Token → Argument → List Token → Prop where
  | argument {name : String} {place place' : Position} {rest rest' : List Token} {v : Value}
      (constant : SpellsConstant rest v rest') :
      SpellsArgument (⟨.name name, place⟩ :: ⟨.punct .colon, place'⟩ :: rest) ⟨name, v⟩ rest'

/-- A directive use stands at its `@`. -/
inductive SpellsUses : List Token → List DirectiveUse → List Token → Prop where
  | none {ts : List Token} : SpellsUses ts [] ts
  | use {name : String} {place place' : Position} {rest rest' rest'' : List Token}
      {args : List Argument} {more : List DirectiveUse}
      (arguments : SpellsBlock SpellsArgument .parenOpen .parenClose rest args rest')
      (behind : SpellsUses rest' more rest'') :
      SpellsUses (⟨.punct .atSign, place⟩ :: ⟨.name name, place'⟩ :: rest)
        (⟨name, args, place⟩ :: more) rest''

inductive SpellsDefault : List Token → Option Value → List Token → Prop where
  | none {ts : List Token} : SpellsDefault ts none ts
  | some {place : Position} {rest rest' : List Token} {v : Value}
      (constant : SpellsConstant rest v rest') :
      SpellsDefault (⟨.punct .equals, place⟩ :: rest) (some v) rest'

/-- An argument or an input field stands at its name. -/
inductive SpellsInput : List Token → InputValue → List Token → Prop where
  | input {ts rest rest₁ rest₂ rest₃ : List Token} {name : String} {text : Option String}
      {place place' : Position} {ty : TypeRef} {default : Option Value} {uses : List DirectiveUse}
      (described : SpellsDescription ts text
        (⟨.name name, place⟩ :: ⟨.punct .colon, place'⟩ :: rest))
      (type : SpellsType rest ty rest₁) (constant : SpellsDefault rest₁ default rest₂)
      (directives : SpellsUses rest₂ uses rest₃) :
      SpellsInput ts ⟨name, text, ty, default, uses, place⟩ rest₃

/-- A field stands at its name. -/
inductive SpellsField : List Token → Field → List Token → Prop where
  | field {ts rest rest₁ rest₂ rest₃ : List Token} {name : String} {text : Option String}
      {place place' : Position} {args : List InputValue} {ty : TypeRef} {uses : List DirectiveUse}
      (described : SpellsDescription ts text (⟨.name name, place⟩ :: rest))
      (arguments : SpellsBlock SpellsInput .parenOpen .parenClose rest args
        (⟨.punct .colon, place'⟩ :: rest₁))
      (type : SpellsType rest₁ ty rest₂) (directives : SpellsUses rest₂ uses rest₃) :
      SpellsField ts ⟨name, text, args, ty, uses, place⟩ rest₃

/-- An enum value stands at its name. -/
inductive SpellsEnumValue : List Token → EnumValue → List Token → Prop where
  | enumValue {ts rest rest₁ : List Token} {name : String} {text : Option String}
      {place : Position} {uses : List DirectiveUse} (free : name ∉ reservedEnumValues)
      (described : SpellsDescription ts text (⟨.name name, place⟩ :: rest))
      (directives : SpellsUses rest uses rest₁) :
      SpellsEnumValue ts ⟨name, text, uses, place⟩ rest₁

/-! ## Definitions -/

/-- A further interface stands behind an ampersand or, in the older form, by itself. A bare name that
begins a definition or that a colon follows is not one of them. -/
inductive SpellsMoreInterfaces : List Token → List String → List Token → Prop where
  | none {ts : List Token} : SpellsMoreInterfaces ts [] ts
  | marked {rest rest' : List Token} {name : String} {place place' : Position}
      {others : List String} (behind : SpellsMoreInterfaces rest others rest') :
      SpellsMoreInterfaces (⟨.punct .ampersand, place⟩ :: ⟨.name name, place'⟩ :: rest)
        (name :: others) rest'
  | bare {rest rest' : List Token} {name : String} {place : Position} {others : List String}
      (free : name ∉ definitionKeywords) (apart : (next rest).kind ≠ .punct .colon)
      (behind : SpellsMoreInterfaces rest others rest') :
      SpellsMoreInterfaces (⟨.name name, place⟩ :: rest) (name :: others) rest'

inductive SpellsInterfaces : List Token → List String → List Token → Prop where
  | none {ts : List Token} : SpellsInterfaces ts [] ts
  | some {place place' : Position} {rest rest₁ rest₂ : List Token} {first : String}
      {others : List String} (mark : MayHave .ampersand rest (⟨.name first, place'⟩ :: rest₁))
      (behind : SpellsMoreInterfaces rest₁ others rest₂) :
      SpellsInterfaces (⟨.name "implements", place⟩ :: rest) (first :: others) rest₂

inductive SpellsName : List Token → String → List Token → Prop where
  | name {name : String} {place : Position} {rest : List Token} :
      SpellsName (⟨.name name, place⟩ :: rest) name rest

inductive SpellsMembers : List Token → List String → List Token → Prop where
  | none {ts : List Token} : SpellsMembers ts [] ts
  | some {place : Position} {rest rest₁ rest₂ : List Token} {members : List String}
      (bar : MayHave .pipe rest rest₁) (names : SpellsBars SpellsName rest₁ members rest₂) :
      SpellsMembers (⟨.punct .equals, place⟩ :: rest) members rest₂

/-- What follows the name of a type of a kind. -/
inductive SpellsKind : List Token → List DirectiveUse → TypeKind → List Token → Prop where
  | scalar {ts rest : List Token} {uses : List DirectiveUse} (directives : SpellsUses ts uses rest) :
      SpellsKind ts uses .scalar rest
  | object {ts rest₁ rest₂ rest₃ : List Token} {interfaces : List String}
      {uses : List DirectiveUse} {fields : List Field}
      (names : SpellsInterfaces ts interfaces rest₁) (directives : SpellsUses rest₁ uses rest₂)
      (inside : SpellsBlock SpellsField .braceOpen .braceClose rest₂ fields rest₃) :
      SpellsKind ts uses (.object interfaces fields) rest₃
  | interface {ts rest₁ rest₂ rest₃ : List Token} {interfaces : List String}
      {uses : List DirectiveUse} {fields : List Field}
      (names : SpellsInterfaces ts interfaces rest₁) (directives : SpellsUses rest₁ uses rest₂)
      (inside : SpellsBlock SpellsField .braceOpen .braceClose rest₂ fields rest₃) :
      SpellsKind ts uses (.interface interfaces fields) rest₃
  | union {ts rest₁ rest₂ : List Token} {uses : List DirectiveUse} {members : List String}
      (directives : SpellsUses ts uses rest₁) (names : SpellsMembers rest₁ members rest₂) :
      SpellsKind ts uses (.union members) rest₂
  | enum {ts rest₁ rest₂ : List Token} {uses : List DirectiveUse} {values : List EnumValue}
      (directives : SpellsUses ts uses rest₁)
      (inside : SpellsBlock SpellsEnumValue .braceOpen .braceClose rest₁ values rest₂) :
      SpellsKind ts uses (.enum values) rest₂
  | inputObject {ts rest₁ rest₂ : List Token} {uses : List DirectiveUse} {fields : List InputValue}
      (directives : SpellsUses ts uses rest₁)
      (inside : SpellsBlock SpellsInput .braceOpen .braceClose rest₁ fields rest₂) :
      SpellsKind ts uses (.inputObject fields) rest₂

/-- A type stands at the keyword of its kind. -/
inductive SpellsTypeDef (text : Option String) : List Token → TypeDef → List Token → Prop where
  | typeDef {name : String} {place place' : Position} {rest rest' : List Token}
      {uses : List DirectiveUse} {kind : TypeKind} (body : SpellsKind rest uses kind rest') :
      SpellsTypeDef text (⟨.name kind.keyword, place⟩ :: ⟨.name name, place'⟩ :: rest)
        ⟨name, text, uses, kind, place⟩ rest'

/-- An operation stands at its word. -/
inductive SpellsOperation : List Token → OperationType → List Token → Prop where
  | operation {operation : Operation} {word typeName : String} {place place₁ place₂ : Position}
      {rest : List Token} (known : operation.keyword = word) :
      SpellsOperation (⟨.name word, place⟩ :: ⟨.punct .colon, place₁⟩ ::
        ⟨.name typeName, place₂⟩ :: rest) ⟨operation, typeName, place⟩ rest

/-- The braces of a schema, which only an extension may leave out. -/
inductive SpellsOperations : Bool → List Token → List OperationType → List Token → Prop where
  | none {ts : List Token} : SpellsOperations true ts [] ts
  | some {extension : Bool} {place : Position} {rest rest' : List Token}
      {operations : List OperationType}
      (inside : SpellsItems SpellsOperation .braceClose rest operations rest') :
      SpellsOperations extension (⟨.punct .braceOpen, place⟩ :: rest) operations rest'

/-- A schema stands at its keyword. -/
inductive SpellsSchema (text : Option String) (extension : Bool) :
    List Token → SchemaDef → List Token → Prop where
  | schema {place : Position} {rest rest₁ rest₂ : List Token} {uses : List DirectiveUse}
      {operations : List OperationType} (directives : SpellsUses rest uses rest₁)
      (braces : SpellsOperations extension rest₁ operations rest₂) :
      SpellsSchema text extension (⟨.name "schema", place⟩ :: rest)
        ⟨text, extension, uses, operations, place⟩ rest₂

inductive SpellsRepeatable : List Token → Bool → List Token → Prop where
  | no {ts : List Token} : SpellsRepeatable ts false ts
  | yes {place : Position} {rest : List Token} :
      SpellsRepeatable (⟨.name "repeatable", place⟩ :: rest) true rest

inductive SpellsLocation : List Token → String → List Token → Prop where
  | location {name : String} {place : Position} {rest : List Token}
      (known : name ∈ directiveLocations) : SpellsLocation (⟨.name name, place⟩ :: rest) name rest

/-- A directive definition stands at its keyword. -/
inductive SpellsDirective (text : Option String) :
    List Token → DirectiveDef → List Token → Prop where
  | directive {place place₁ place₂ place₃ : Position} {name : String}
      {rest rest₁ rest₂ rest₃ rest₄ : List Token} {args : List InputValue} {repeats : Bool}
      {locations : List String}
      (arguments : SpellsBlock SpellsInput .parenOpen .parenClose rest args rest₁)
      (repetition : SpellsRepeatable rest₁ repeats (⟨.name "on", place₃⟩ :: rest₂))
      (bar : MayHave .pipe rest₂ rest₃) (names : SpellsBars SpellsLocation rest₃ locations rest₄) :
      SpellsDirective text
        (⟨.name "directive", place⟩ :: ⟨.punct .atSign, place₁⟩ :: ⟨.name name, place₂⟩ :: rest)
        ⟨name, text, args, repeats, locations, place⟩ rest₄

/-- An extension has no description, and stands at the keyword behind the word `extend`. -/
inductive SpellsDefinition : List Token → Definition → List Token → Prop where
  | schema {ts rest rest' : List Token} {text : Option String} {schema : SchemaDef}
      (described : SpellsDescription ts text rest) (spelled : SpellsSchema text false rest schema rest') :
      SpellsDefinition ts (.schema schema) rest'
  | type {ts rest rest' : List Token} {text : Option String} {type : TypeDef}
      (described : SpellsDescription ts text rest) (spelled : SpellsTypeDef text rest type rest') :
      SpellsDefinition ts (.type type) rest'
  | directive {ts rest rest' : List Token} {text : Option String} {directive : DirectiveDef}
      (described : SpellsDescription ts text rest)
      (spelled : SpellsDirective text rest directive rest') :
      SpellsDefinition ts (.directive directive) rest'
  | extendSchema {place : Position} {rest rest' : List Token} {schema : SchemaDef}
      (spelled : SpellsSchema none true rest schema rest') :
      SpellsDefinition (⟨.name "extend", place⟩ :: rest) (.schema schema) rest'
  | extendType {place : Position} {rest rest' : List Token} {type : TypeDef}
      (spelled : SpellsTypeDef none rest type rest') :
      SpellsDefinition (⟨.name "extend", place⟩ :: rest) (.extend type) rest'

/-- Definitions up to the end of the source. -/
inductive SpellsDefinitions : List Token → List Definition → Prop where
  | finish {place : Position} : SpellsDefinitions [⟨.eof, place⟩] []
  | definition {ts rest : List Token} {first : Definition} {more : List Definition}
      (spelled : SpellsDefinition ts first rest) (behind : SpellsDefinitions rest more) :
      SpellsDefinitions ts (first :: more)

end SchemaCompiler.Grammar
