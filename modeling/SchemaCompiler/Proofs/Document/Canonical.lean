import SchemaCompiler.Document.Grammar
import SchemaCompiler.Document.Text
import SchemaCompiler.Proofs.Source.Lexemes

/-!
Well-formed documents and their canonical text.

The canonical text is a list of words with a space between each two. A word is a name, a mark, a
quoted string, or a whole type reference or constant as it is written elsewhere. Definitions stand
in grammar order, and bodies and argument lists without items are left out.
-/

namespace SchemaCompiler

open Grammar (reservedEnumValues directiveLocations)

/-! ## Well-formed documents -/

/-- No non-null mark stands directly behind another. -/
def TypeRef.WellFormed : TypeRef → Prop
  | named name => IsName name
  | list inner => inner.WellFormed
  | nonNull inner => inner.WellFormed ∧ ∀ other, inner ≠ .nonNull other

mutual

def Value.WellFormed : Value → Prop
  | .int text => IsInt text
  | .float text => IsFloat text
  | .enum name => IsName name ∧ name ∉ reservedEnumValues
  | .list items => Value.ItemsWellFormed items
  | .object entries => Value.EntriesWellFormed entries
  | _ => True

def Value.ItemsWellFormed : List Value → Prop
  | [] => True
  | item :: items => item.WellFormed ∧ Value.ItemsWellFormed items

def Value.EntriesWellFormed : List (String × Value) → Prop
  | [] => True
  | (name, value) :: entries =>
    IsName name ∧ value.WellFormed ∧ Value.EntriesWellFormed entries

end

def Argument.WellFormed (arg : Argument) : Prop := IsName arg.name ∧ arg.value.WellFormed

def DirectiveUse.WellFormed (use : DirectiveUse) : Prop :=
  IsName use.name ∧ ∀ arg ∈ use.args, arg.WellFormed

structure InputValue.WellFormed (value : InputValue) : Prop where
  name : IsName value.name
  ty : value.ty.WellFormed
  default : ∀ constant, value.default = some constant → constant.WellFormed
  directives : ∀ use ∈ value.directives, use.WellFormed

structure Field.WellFormed (field : Field) : Prop where
  name : IsName field.name
  args : ∀ arg ∈ field.args, arg.WellFormed
  ty : field.ty.WellFormed
  directives : ∀ use ∈ field.directives, use.WellFormed

structure EnumValue.WellFormed (value : EnumValue) : Prop where
  name : IsName value.name
  free : value.name ∉ reservedEnumValues
  directives : ∀ use ∈ value.directives, use.WellFormed

def TypeKind.WellFormed : TypeKind → Prop
  | scalar => True
  | object interfaces fields | interface interfaces fields =>
    (∀ name ∈ interfaces, IsName name) ∧ ∀ field ∈ fields, field.WellFormed
  | union members => ∀ name ∈ members, IsName name
  | enum values => ∀ value ∈ values, value.WellFormed
  | inputObject fields => ∀ field ∈ fields, field.WellFormed

structure TypeDef.WellFormed (type : TypeDef) : Prop where
  name : IsName type.name
  directives : ∀ use ∈ type.directives, use.WellFormed
  kind : type.kind.WellFormed

structure SchemaDef.WellFormed (schema : SchemaDef) : Prop where
  directives : ∀ use ∈ schema.directives, use.WellFormed
  operations : ∀ operation ∈ schema.operations, IsName operation.typeName
  description : schema.extension = true → schema.description = none

structure DirectiveDef.WellFormed (directive : DirectiveDef) : Prop where
  name : IsName directive.name
  args : ∀ arg ∈ directive.args, arg.WellFormed
  located : directive.locations ≠ []
  locations : ∀ location ∈ directive.locations, location ∈ directiveLocations

def Definition.WellFormed : Definition → Prop
  | .schema root => root.WellFormed
  | .type declared => declared.WellFormed
  | .extend added => added.WellFormed ∧ added.description = none
  | .directive declared => declared.WellFormed

def Document.WellFormed (doc : Document) : Prop :=
  ∀ definition ∈ doc.definitions, definition.WellFormed

/-! ## Words -/

/-- A piece of canonical text that stands between spaces. -/
inductive Word where
  | name (text : String)
  | mark (mark : Punctuator)
  | quoted (value : String)
  | typeRef (ref : TypeRef)
  | constant (value : Value)

def Word.text : Word → String
  | name text => text
  | mark punctuator => punctuator.char.toString
  | quoted value => Value.quoted value
  | typeRef ref => ref.text
  | constant value => value.text

namespace Word

def description : Option String → List Word
  | none => []
  | some text => [.quoted text]

/-- The words of items between two marks; nothing if there are no items. -/
def block {α : Type} (openMark close : Punctuator) (words : α → List Word) : List α → List Word
  | [] => []
  | items => .mark openMark :: (items.flatMap words ++ [.mark close])

/-- Names with a mark between each two. -/
def separated (mark : Punctuator) : List String → List Word
  | [] => []
  | [item] => [.name item]
  | item :: items => .name item :: .mark mark :: separated mark items

/-- Names behind a word, with a mark between each two; nothing if there are no names. -/
def listing (front : Word) (mark : Punctuator) : List String → List Word
  | [] => []
  | names => front :: separated mark names

def default : Option Value → List Word
  | none => []
  | some value => [.mark .equals, .constant value]

end Word

def Argument.words (arg : Argument) : List Word :=
  [.name arg.name, .mark .colon, .constant arg.value]

def DirectiveUse.words (use : DirectiveUse) : List Word :=
  [.mark .atSign, .name use.name] ++ Word.block .parenOpen .parenClose Argument.words use.args

def InputValue.words (value : InputValue) : List Word :=
  Word.description value.description ++ [.name value.name, .mark .colon, .typeRef value.ty] ++
    Word.default value.default ++ value.directives.flatMap DirectiveUse.words

def Field.words (field : Field) : List Word :=
  Word.description field.description ++ [.name field.name] ++
    Word.block .parenOpen .parenClose InputValue.words field.args ++
      [.mark .colon, .typeRef field.ty] ++ field.directives.flatMap DirectiveUse.words

def EnumValue.words (value : EnumValue) : List Word :=
  Word.description value.description ++ [.name value.name] ++
    value.directives.flatMap DirectiveUse.words

def OperationType.words (operation : OperationType) : List Word :=
  [.name operation.operation.keyword, .mark .colon, .name operation.typeName]

/-- What stands between the name of a type and its directives. -/
def TypeKind.interfaceWords : TypeKind → List Word
  | object interfaces _ | interface interfaces _ =>
    Word.listing (.name "implements") .ampersand interfaces
  | _ => []

/-- What stands behind the directives of a type. -/
def TypeKind.bodyWords : TypeKind → List Word
  | scalar => []
  | object _ fields | interface _ fields => Word.block .braceOpen .braceClose Field.words fields
  | union members => Word.listing (.mark .equals) .pipe members
  | enum values => Word.block .braceOpen .braceClose EnumValue.words values
  | inputObject fields => Word.block .braceOpen .braceClose InputValue.words fields

def TypeDef.words (type : TypeDef) : List Word :=
  Word.description type.description ++ [.name type.kind.keyword, .name type.name] ++
    type.kind.interfaceWords ++ type.directives.flatMap DirectiveUse.words ++ type.kind.bodyWords

/-- The braces of a schema definition always stand, those of an extension only around something. -/
def SchemaDef.operationWords (schema : SchemaDef) : List Word :=
  if schema.extension then
    Word.block .braceOpen .braceClose OperationType.words schema.operations
  else .mark .braceOpen :: (schema.operations.flatMap OperationType.words ++ [.mark .braceClose])

def SchemaDef.words (schema : SchemaDef) : List Word :=
  Word.description schema.description ++ (if schema.extension then [.name "extend"] else []) ++
    [.name "schema"] ++ schema.directives.flatMap DirectiveUse.words ++ schema.operationWords

def DirectiveDef.words (directive : DirectiveDef) : List Word :=
  Word.description directive.description ++
    [.name "directive", .mark .atSign, .name directive.name] ++
      Word.block .parenOpen .parenClose InputValue.words directive.args ++
        (if directive.repeatable then [.name "repeatable"] else []) ++
          [.name "on"] ++ Word.separated .pipe directive.locations

def Definition.words : Definition → List Word
  | .schema root => root.words
  | .type declared => declared.words
  | .extend added => .name "extend" :: added.words
  | .directive declared => declared.words

def Document.words (doc : Document) : List Word := doc.definitions.flatMap Definition.words

/-- The document as source text. -/
def Document.canonical (doc : Document) : String :=
  String.intercalate " " (doc.words.map Word.text)

/-! ## The tokens of a word -/

def TypeRef.kinds : TypeRef → List TokenKind
  | named name => [.name name]
  | list inner => .punct .bracketOpen :: (inner.kinds ++ [.punct .bracketClose])
  | nonNull inner => inner.kinds ++ [.punct .bang]

mutual

def Value.kinds : Value → List TokenKind
  | .int text => [.int text]
  | .float text => [.float text]
  | .string value => [.string value]
  | .boolean value => [.name (if value then "true" else "false")]
  | .null => [.name "null"]
  | .enum name => [.name name]
  | .list items => .punct .bracketOpen :: (Value.itemKinds items ++ [.punct .bracketClose])
  | .object entries => .punct .braceOpen :: (Value.entryKinds entries ++ [.punct .braceClose])

def Value.itemKinds : List Value → List TokenKind
  | [] => []
  | item :: items => item.kinds ++ Value.itemKinds items

def Value.entryKinds : List (String × Value) → List TokenKind
  | [] => []
  | (name, value) :: entries =>
    [.name name, .punct .colon] ++ value.kinds ++ Value.entryKinds entries

end

namespace Value

theorem itemKinds_eq_flatMap (items : List Value) : itemKinds items = items.flatMap kinds := by
  induction items with
  | nil => rfl
  | cons item items ih => rw [itemKinds, ih, List.flatMap_cons]

def entryTokens (entry : String × Value) : List TokenKind :=
  [.name entry.1, .punct .colon] ++ entry.2.kinds

theorem entryKinds_eq_flatMap (entries : List (String × Value)) :
    entryKinds entries = entries.flatMap entryTokens := by
  induction entries with
  | nil => rfl
  | cons entry entries ih =>
    obtain ⟨name, value⟩ := entry
    rw [entryKinds, ih, List.flatMap_cons]
    rfl

end Value

def Word.kinds : Word → List TokenKind
  | name text => [.name text]
  | mark punctuator => [.punct punctuator]
  | quoted value => [.string value]
  | typeRef ref => ref.kinds
  | constant value => value.kinds

/-- The tokens of words in a row. -/
def Word.tokens (words : List Word) : List TokenKind := words.flatMap Word.kinds

/-! ## Documents up to positions -/

def DirectiveUse.unplaced (use : DirectiveUse) : DirectiveUse := { use with position := .start }

def InputValue.unplaced (value : InputValue) : InputValue :=
  { value with directives := value.directives.map DirectiveUse.unplaced, position := .start }

def Field.unplaced (field : Field) : Field :=
  { field with
    args := field.args.map InputValue.unplaced
    directives := field.directives.map DirectiveUse.unplaced
    position := .start }

def EnumValue.unplaced (value : EnumValue) : EnumValue :=
  { value with directives := value.directives.map DirectiveUse.unplaced, position := .start }

def OperationType.unplaced (operation : OperationType) : OperationType :=
  { operation with position := .start }

def TypeKind.unplaced : TypeKind → TypeKind
  | scalar => scalar
  | object interfaces fields => object interfaces (fields.map Field.unplaced)
  | interface interfaces fields => interface interfaces (fields.map Field.unplaced)
  | union members => union members
  | enum values => enum (values.map EnumValue.unplaced)
  | inputObject fields => inputObject (fields.map InputValue.unplaced)

def TypeDef.unplaced (type : TypeDef) : TypeDef :=
  { type with
    directives := type.directives.map DirectiveUse.unplaced
    kind := type.kind.unplaced
    position := .start }

def SchemaDef.unplaced (schema : SchemaDef) : SchemaDef :=
  { schema with
    directives := schema.directives.map DirectiveUse.unplaced
    operations := schema.operations.map OperationType.unplaced
    position := .start }

def DirectiveDef.unplaced (directive : DirectiveDef) : DirectiveDef :=
  { directive with args := directive.args.map InputValue.unplaced, position := .start }

def Definition.unplaced : Definition → Definition
  | .schema root => .schema root.unplaced
  | .type declared => .type declared.unplaced
  | .extend added => .extend added.unplaced
  | .directive declared => .directive declared.unplaced

/-- The document with every position forgotten. -/
def Document.unplaced (doc : Document) : Document :=
  { doc with definitions := doc.definitions.map Definition.unplaced }

end SchemaCompiler
