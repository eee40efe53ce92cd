import SchemaCompiler.Document.Text
import SchemaCompiler.Page.Options
import SchemaCompiler.Text.Lines

/-!
Documentation pages in Markdown.

A page has a table of contents and then one section for each kind of definition, in a fixed order.
Inside a section the definitions keep the order of the document; a kind without definitions has no
section.
-/

namespace SchemaCompiler.Page

/-! ## Sections -/

inductive Section where
  | schema
  | scalars
  | objects
  | interfaces
  | unions
  | enums
  | inputObjects
  | directives
  | extensions
deriving DecidableEq, Repr

namespace Section

/-- The sections in the order of the page. -/
def all : List Section :=
  [schema, scalars, objects, interfaces, unions, enums, inputObjects, directives, extensions]

def heading : Section → String
  | schema => "Schema"
  | scalars => "Scalars"
  | objects => "Objects"
  | interfaces => "Interfaces"
  | unions => "Unions"
  | enums => "Enums"
  | inputObjects => "Input Objects"
  | directives => "Directives"
  | extensions => "Extensions"

def ofKind : TypeKind → Section
  | .scalar => scalars
  | .object .. => objects
  | .interface .. => interfaces
  | .union .. => unions
  | .enum .. => enums
  | .inputObject .. => inputObjects

/-- The section that a definition belongs to. -/
def ofDefinition : Definition → Section
  | .schema s => if s.extension then extensions else schema
  | .type t => ofKind t.kind
  | .extend _ => extensions
  | .directive _ => directives

end Section

/-! ## Pieces of text -/

/-- The target of a link to a heading. -/
def anchor (heading : String) : String :=
  String.ofList (heading.toList.map fun c => if c = ' ' then '-' else c)

/-- A type's name, which links to its entry unless the type is built in. -/
def nameLink (name : String) : String :=
  if isBuiltinScalar name then name else "[" ++ name ++ "](#" ++ name ++ ")"

/-- A type reference with the name inside it as a link. -/
def typeLink : TypeRef → String
  | .named name => nameLink name
  | .list inner => "[" ++ typeLink inner ++ "]"
  | .nonNull inner => typeLink inner ++ "!"

/-- The lines of a text, each but the first indented by a tab. -/
def indented (text : String) : String := String.intercalate "\n\t" (Text.lines text)

/-- A description on its own. -/
def paragraph : Option String → String
  | some text => text ++ "\n\n"
  | none => ""

/-- A description inside an item; `indent` is the indentation of the item. -/
def itemParagraph (indent : String) : Option String → String
  | some text => "\n" ++ indent ++ "\t" ++ indented text ++ "\n"
  | none => ""

def directiveList (uses : List DirectiveUse) : String :=
  String.intercalate " " (uses.map DirectiveUse.text)

/-- Applied directives on a line of their own. -/
def directivesLine (uses : List DirectiveUse) : String :=
  if uses.isEmpty then "" else "*Directives*: `" ++ directiveList uses ++ "`\n\n"

/-- Applied directives inside an item. -/
def itemDirectives (uses : List DirectiveUse) : String :=
  if uses.isEmpty then "" else "\n\t*Directives*: `" ++ directiveList uses ++ "`\n"

/-! ## Items -/

/-- An argument or an input field; an argument of a field is indented by a tab. -/
def inputItem (indent : String) (input : InputValue) : String :=
  indent ++ "- " ++ input.name ++ " **(" ++ typeLink input.ty ++ ")**\n" ++
    itemParagraph indent input.description ++
    match input.default with
    | some value => "\n" ++ indent ++ "\t*Default Value*: `" ++ value.text ++ "`\n"
    | none => ""

def inputItems (indent : String) (inputs : List InputValue) : String :=
  String.join (inputs.map (inputItem indent))

def fieldItem (field : Field) : String :=
  "- " ++ field.name ++ " **(" ++ typeLink field.ty ++ ")**\n" ++
    itemParagraph "" field.description ++
    (if field.args.isEmpty then "" else "\n\t*Args*:\n" ++ inputItems "\t" field.args) ++
    itemDirectives field.directives

def enumItem (value : EnumValue) : String :=
  "- " ++ value.name ++ "\n" ++ itemParagraph "" value.description ++
    itemDirectives value.directives

def memberItem (member : String) : String := "- " ++ nameLink member ++ "\n"

def operationItem (operation : OperationType) : String :=
  "- " ++ operation.operation.keyword ++ " **(" ++ nameLink operation.typeName ++ ")**\n"

/-! ## Entries -/

/-- What a page says about a definition. -/
structure Entry where
  name : String
  body : String
deriving DecidableEq, Repr

def implementsLine (interfaces : List String) : String :=
  if interfaces.isEmpty then ""
  else "*Implements*: " ++ String.intercalate ", " (interfaces.map nameLink) ++ "\n\n"

/-- The parts of a type. -/
def kindBody : TypeKind → String
  | .scalar => ""
  | .object interfaces fields | .interface interfaces fields =>
    implementsLine interfaces ++ String.join (fields.map fieldItem)
  | .union members => String.join (members.map memberItem)
  | .enum values => String.join (values.map enumItem)
  | .inputObject fields => inputItems "" fields

/-- A text that ends in an empty line, without that line. -/
def dropEmptyEnd (text : String) : String :=
  match text.toList.reverse with
  | '\n' :: '\n' :: rest => String.ofList ('\n' :: rest).reverse
  | _ => text

def typeEntry (type : TypeDef) : Entry where
  name := type.name
  body :=
    dropEmptyEnd
      (paragraph type.description ++ directivesLine type.directives ++ kindBody type.kind)

def schemaEntry (schema : SchemaDef) : Entry where
  name := "schema"
  body :=
    paragraph schema.description ++ directivesLine schema.directives ++
      String.join (schema.operations.map operationItem)

def directiveEntry (directive : DirectiveDef) : Entry where
  name := directive.name
  body :=
    paragraph directive.description ++ inputItems "" directive.args ++
      (if directive.args.isEmpty then "" else "\n") ++
      (if directive.repeatable then "*Repeatable*\n\n" else "") ++
      "*Locations*: " ++ String.intercalate " | " directive.locations ++ "\n"

def entry : Definition → Entry
  | .schema s => schemaEntry s
  | .type t | .extend t => typeEntry t
  | .directive d => directiveEntry d

/-! ## The page -/

/-- The definitions of a section. -/
def definitionsIn (doc : Document) (part : Section) : List Definition :=
  doc.definitions.filter fun definition => Section.ofDefinition definition = part

/-- The entries of the sections that have any. -/
def outline (doc : Document) : List (Section × List Entry) :=
  (Section.all.map fun part => (part, (definitionsIn doc part).map entry)).filter
    fun (_, entries) => !entries.isEmpty

/-- The links to a section and its entries. -/
def contentsOf (part : Section × List Entry) : String :=
  "- [" ++ part.1.heading ++ "](#" ++ anchor part.1.heading ++ ")\n" ++
    String.join
      (part.2.map fun entry => "\t* [" ++ entry.name ++ "](#" ++ anchor entry.name ++ ")\n")

def sectionText (part : Section × List Entry) : String :=
  "## " ++ part.1.heading ++ "\n" ++
    String.join (part.2.map fun entry => "\n### " ++ entry.name ++ "\n" ++ entry.body) ++ "\n"

def markdown (doc : Document) (options : PageOptions) : String :=
  "# " ++ options.title.getD doc.name ++ "\n*This was generated by sdlc.*\n\n" ++
    "## Table of Contents\n" ++ String.join ((outline doc).map contentsOf) ++ "\n" ++
    String.join ((outline doc).map sectionText)

end SchemaCompiler.Page
