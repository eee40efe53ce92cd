import SchemaCompiler.Token

/-!
The document model: what a schema file says, definition by definition.
-/

namespace SchemaCompiler

/-! ## Type references and constant values -/

/-- A use of a type, possibly wrapped in list and non-null marks. -/
inductive TypeRef where
  | named (name : String)
  | list (inner : TypeRef)
  | nonNull (inner : TypeRef)
deriving DecidableEq, Repr, Inhabited

/-- The name inside all wrappers. -/
def TypeRef.baseName : TypeRef → String
  | named name => name
  | list inner | nonNull inner => inner.baseName

/-- A constant. Numbers keep their spelling. -/
inductive Value where
  | int (text : String)
  | float (text : String)
  | string (value : String)
  | boolean (value : Bool)
  | null
  | enum (name : String)
  | list (items : List Value)
  | object (entries : List (String × Value))
deriving BEq, Repr, Inhabited

/-- An applied directive's argument. -/
structure Argument where
  name : String
  value : Value
deriving BEq, Repr, Inhabited

/-- A directive applied to a definition or to a part of one. -/
structure DirectiveUse where
  name : String
  args : List Argument
  position : Position
deriving BEq, Repr, Inhabited

/-! ## Definitions -/

/-- An argument of a field or a directive, or a field of an input type. -/
structure InputValue where
  name : String
  description : Option String
  ty : TypeRef
  default : Option Value
  directives : List DirectiveUse
  position : Position
deriving BEq, Repr, Inhabited

structure Field where
  name : String
  description : Option String
  args : List InputValue
  ty : TypeRef
  directives : List DirectiveUse
  position : Position
deriving BEq, Repr, Inhabited

structure EnumValue where
  name : String
  description : Option String
  directives : List DirectiveUse
  position : Position
deriving BEq, Repr, Inhabited

inductive TypeKind where
  | scalar
  | object (interfaces : List String) (fields : List Field)
  | interface (interfaces : List String) (fields : List Field)
  | union (members : List String)
  | enum (values : List EnumValue)
  | inputObject (fields : List InputValue)
deriving BEq, Repr, Inhabited

structure TypeDef where
  name : String
  description : Option String
  directives : List DirectiveUse
  kind : TypeKind
  position : Position
deriving BEq, Repr, Inhabited

/-- The kinds of root operation. -/
inductive Operation where
  | query
  | mutation
  | subscription
deriving DecidableEq, Repr, Inhabited

/-- The type that a root operation starts from. -/
structure OperationType where
  operation : Operation
  typeName : String
  position : Position
deriving DecidableEq, Repr, Inhabited

/-- A schema definition, or an extension of one. -/
structure SchemaDef where
  description : Option String
  extension : Bool
  directives : List DirectiveUse
  operations : List OperationType
  position : Position
deriving BEq, Repr, Inhabited

structure DirectiveDef where
  name : String
  description : Option String
  args : List InputValue
  repeatable : Bool
  locations : List String
  position : Position
deriving BEq, Repr, Inhabited

inductive Definition where
  | schema (schema : SchemaDef)
  | type (type : TypeDef)
  /-- An extension of a type that some document defines. -/
  | extend (type : TypeDef)
  | directive (directive : DirectiveDef)
deriving BEq, Repr, Inhabited

/-- The definitions of one schema file, in source order. -/
structure Document where
  name : String
  path : String
  definitions : List Definition
deriving BEq, Repr, Inhabited

/-! ## What every schema has -/

def builtinScalars : List String := ["Int", "Float", "String", "Boolean", "ID"]

def builtinDirectives : List String := ["skip", "include", "deprecated", "specifiedBy"]

def isBuiltinScalar (name : String) : Bool := builtinScalars.contains name

def isBuiltinDirective (name : String) : Bool := builtinDirectives.contains name

/-! ## Views -/

def Operation.keyword : Operation → String
  | query => "query"
  | mutation => "mutation"
  | subscription => "subscription"

namespace TypeKind

/-- The word that declares the kind in a source. -/
def keyword : TypeKind → String
  | scalar => "scalar"
  | object .. => "type"
  | interface .. => "interface"
  | union .. => "union"
  | enum .. => "enum"
  | inputObject .. => "input"

/-- Whether a field may have a type of this kind. -/
def isOutput : TypeKind → Bool
  | inputObject .. => false
  | _ => true

/-- Whether an argument or an input field may have a type of this kind. -/
def isInput : TypeKind → Bool
  | scalar | enum .. | inputObject .. => true
  | _ => false

def isObject : TypeKind → Bool
  | object .. => true
  | _ => false

def isInterface : TypeKind → Bool
  | interface .. => true
  | _ => false

end TypeKind

/-- The fields of an object or interface type. -/
def TypeDef.fields (type : TypeDef) : List Field :=
  match type.kind with
  | .object _ fields | .interface _ fields => fields
  | _ => []

namespace Document

def types (doc : Document) : List TypeDef :=
  doc.definitions.filterMap fun
    | .type type => some type
    | _ => none

def extensions (doc : Document) : List TypeDef :=
  doc.definitions.filterMap fun
    | .extend type => some type
    | _ => none

def directives (doc : Document) : List DirectiveDef :=
  doc.definitions.filterMap fun
    | .directive directive => some directive
    | _ => none

/-- Schema definitions and schema extensions. -/
def schemas (doc : Document) : List SchemaDef :=
  doc.definitions.filterMap fun
    | .schema schema => some schema
    | _ => none

end Document

end SchemaCompiler
