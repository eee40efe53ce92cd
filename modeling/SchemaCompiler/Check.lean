import SchemaCompiler.Document

/-!
The rules of a schema.

All documents of a run are checked as one schema: a name declared in one of them may be used,
implemented or extended in another. Every violation is reported; redefinitions come first and then
what is wrong inside the definitions, both in source order.
-/

namespace SchemaCompiler

/-- A broken rule. -/
inductive Violation where
  | typeRedefined (name : String)
  | directiveRedefined (name : String)
  | schemaRedefined
  | extendsUnknown (name : String)
  | extendsOtherKind (base name extension : String)
  | operationRepeated (operation : Operation)
  | operationNotObject (operation : Operation) (typeName : String)
  | unknownType (name : String)
  | unknownDirective (name : String)
  | fieldRepeated (field type : String)
  | memberRepeated (union member : String)
  | memberNotObject (member : String)
  | enumValueRepeated (value type : String)
  | argumentRepeated (name : String)
  | inputFieldRepeated (name : String)
  | notInterface (type interface : String)
  | fieldMissing (type field interface : String)
  | notInput (name keyword : String)
  | notOutput (name : String)
deriving DecidableEq, Repr

def Violation.message : Violation → String
  | typeRedefined name => "type '" ++ name ++ "' is already defined"
  | directiveRedefined name => "directive '@" ++ name ++ "' is already defined"
  | schemaRedefined => "schema is already defined"
  | extendsUnknown name => "cannot extend unknown type '" ++ name ++ "'"
  | extendsOtherKind base name extension =>
    "cannot extend " ++ base ++ " '" ++ name ++ "' with " ++ extension
  | operationRepeated operation => operation.keyword ++ " operation is defined more than once"
  | operationNotObject operation typeName =>
    operation.keyword ++ " operation type '" ++ typeName ++ "' must be an object type"
  | unknownType name => "unknown type '" ++ name ++ "'"
  | unknownDirective name => "unknown directive '@" ++ name ++ "'"
  | fieldRepeated field type =>
    "field '" ++ field ++ "' is defined more than once on '" ++ type ++ "'"
  | memberRepeated union member =>
    "union '" ++ union ++ "' lists '" ++ member ++ "' more than once"
  | memberNotObject member => "union member '" ++ member ++ "' must be an object type"
  | enumValueRepeated value type =>
    "enum value '" ++ value ++ "' is defined more than once on '" ++ type ++ "'"
  | argumentRepeated name => "argument '" ++ name ++ "' is defined more than once"
  | inputFieldRepeated name => "input field '" ++ name ++ "' is defined more than once"
  | notInterface type interface =>
    "'" ++ type ++ "' implements '" ++ interface ++ "', which is not an interface"
  | fieldMissing type field interface =>
    "'" ++ type ++ "' does not declare field '" ++ field ++ "' required by interface '" ++
      interface ++ "'"
  | notInput name keyword =>
    "'" ++ name ++ "' is a " ++ keyword ++ " and cannot be used as an input type"
  | notOutput name => "'" ++ name ++ "' is an input and cannot be used as an output type"

/-- A broken rule and where it is broken. -/
structure Diagnostic where
  document : String
  position : Position
  violation : Violation
deriving DecidableEq, Repr

def Diagnostic.message (d : Diagnostic) : String :=
  d.document ++ ":" ++ d.position.text ++ ": " ++ d.violation.message

namespace Check

/-- A broken rule inside a document whose name is still to be added. -/
abbrev Finding := Position × Violation

/-! ## Declared names -/

/-- What the documents declare. Of several types of one name the first counts, and none that has
the name of a built-in scalar. -/
structure Declarations where
  types : List TypeDef
  extensions : List TypeDef
  directives : List String
  /-- Whether a schema definition was met. -/
  schema : Bool

namespace Declarations

def empty : Declarations := ⟨[], [], [], false⟩

def type? (d : Declarations) (name : String) : Option TypeDef :=
  d.types.find? (·.name == name)

def knowsDirective (d : Declarations) (name : String) : Bool :=
  isBuiltinDirective name || d.directives.contains name

/-- Adds a definition, with a finding if its name is taken. -/
def add (d : Declarations) : Definition → List Finding × Declarations
  | .type type =>
    if isBuiltinScalar type.name || (d.type? type.name).isSome then
      ([(type.position, .typeRedefined type.name)], d)
    else ([], { d with types := d.types ++ [type] })
  | .extend type => ([], { d with extensions := d.extensions ++ [type] })
  | .directive directive =>
    if d.knowsDirective directive.name then
      ([(directive.position, .directiveRedefined directive.name)], d)
    else ([], { d with directives := d.directives ++ [directive.name] })
  | .schema schema =>
    if schema.extension then ([], d)
    else (if d.schema then [(schema.position, .schemaRedefined)] else [], { d with schema := true })

/-- Adds definitions in order, each with the name of its document. -/
def addAll (d : Declarations) :
    List (String × Definition) → List (String × Finding) × Declarations
  | [] => ([], d)
  | (doc, definition) :: rest =>
    let (findings, d) := d.add definition
    let (more, d) := d.addAll rest
    (findings.map ((doc, ·)) ++ more, d)

/-- The field names of a type together with those of all its extensions. -/
def fieldNames (d : Declarations) (name : String) : List String :=
  ((d.type? name).toList ++ d.extensions.filter (·.name == name)).flatMap
    fun type => type.fields.map (·.name)

end Declarations

/-! ## Rules inside a definition -/

/-- Pairs every item with whether an earlier one has the same key. -/
def markRepeats {α κ : Type} [BEq κ] (key : α → κ) (seen : List κ) :
    List α → List (α × Bool)
  | [] => []
  | item :: items =>
    (item, seen.contains (key item)) :: markRepeats key (key item :: seen) items

/-- A finding if the condition holds. -/
def findIf (broken : Bool) (finding : Finding) : List Finding := if broken then [finding] else []

def directiveUses (d : Declarations) (uses : List DirectiveUse) : List Finding :=
  uses.flatMap fun use =>
    findIf (!d.knowsDirective use.name) (use.position, .unknownDirective use.name)

def outputRef (d : Declarations) (place : Position) (ref : TypeRef) : List Finding :=
  let name := ref.baseName
  if isBuiltinScalar name then []
  else
    match d.type? name with
    | none => [(place, .unknownType name)]
    | some type => findIf (!type.kind.isOutput) (place, .notOutput name)

def inputRef (d : Declarations) (place : Position) (ref : TypeRef) : List Finding :=
  let name := ref.baseName
  if isBuiltinScalar name then []
  else
    match d.type? name with
    | none => [(place, .unknownType name)]
    | some type => findIf (!type.kind.isInput) (place, .notInput name type.kind.keyword)

/-- Arguments or input fields; `repeated` is the violation for a name that comes again. -/
def inputValues (d : Declarations) (repeated : String → Violation) (values : List InputValue) :
    List Finding :=
  (markRepeats (·.name) [] values).flatMap fun (value, again) =>
    findIf again (value.position, repeated value.name) ++ inputRef d value.position value.ty ++
      directiveUses d value.directives

def fields (d : Declarations) (type : String) (fields : List Field) : List Finding :=
  (markRepeats (·.name) [] fields).flatMap fun (field, again) =>
    findIf again (field.position, .fieldRepeated field.name type) ++
      outputRef d field.position field.ty ++ inputValues d .argumentRepeated field.args ++
      directiveUses d field.directives

/-- The fields that an interface asks for and a type lacks, in the order of their names. -/
def missingFields (d : Declarations) (type interface : String) : List String :=
  ((d.fieldNames interface).eraseDups.mergeSort (fun a b => decide (a ≤ b))).filter
    fun field => !(d.fieldNames type).contains field

def interfaces (d : Declarations) (type : TypeDef) (interfaces : List String) : List Finding :=
  interfaces.flatMap fun interface =>
    match d.type? interface with
    | none => [(type.position, .unknownType interface)]
    | some declared =>
      if declared.kind.isInterface then
        (missingFields d type.name interface).map fun field =>
          (type.position, .fieldMissing type.name field interface)
      else [(type.position, .notInterface type.name interface)]

def unionMembers (d : Declarations) (type : TypeDef) (members : List String) : List Finding :=
  (markRepeats id [] members).flatMap fun (member, again) =>
    findIf again (type.position, .memberRepeated type.name member) ++
      match d.type? member with
      | some declared => findIf (!declared.kind.isObject) (type.position, .memberNotObject member)
      | none =>
        if isBuiltinScalar member then [(type.position, .memberNotObject member)]
        else [(type.position, .unknownType member)]

def enumValues (d : Declarations) (type : String) (values : List EnumValue) : List Finding :=
  (markRepeats (·.name) [] values).flatMap fun (value, again) =>
    findIf again (value.position, .enumValueRepeated value.name type) ++
      directiveUses d value.directives

/-- A type definition or the added part of an extension. -/
def typeDef (d : Declarations) (type : TypeDef) : List Finding :=
  directiveUses d type.directives ++
    match type.kind with
    | .scalar => []
    | .object implemented declared | .interface implemented declared =>
      fields d type.name declared ++ interfaces d type implemented
    | .union members => unionMembers d type members
    | .enum values => enumValues d type.name values
    | .inputObject declared => inputValues d .inputFieldRepeated declared

/-- An extension has to name a type of its own kind. -/
def extensionTarget (d : Declarations) (type : TypeDef) : List Finding :=
  match d.type? type.name with
  | none => [(type.position, .extendsUnknown type.name)]
  | some base =>
    findIf (base.kind.keyword != type.kind.keyword)
      (type.position, .extendsOtherKind base.kind.keyword type.name type.kind.keyword)

def operationTypes (d : Declarations) (operations : List OperationType) : List Finding :=
  (markRepeats (·.operation) [] operations).flatMap fun (op, again) =>
    findIf again (op.position, .operationRepeated op.operation) ++
      match d.type? op.typeName with
      | none => [(op.position, .unknownType op.typeName)]
      | some type =>
        findIf (!type.kind.isObject) (op.position, .operationNotObject op.operation op.typeName)

def definition (d : Declarations) : Definition → List Finding
  | .schema schema => directiveUses d schema.directives ++ operationTypes d schema.operations
  | .type type => typeDef d type
  | .extend type => extensionTarget d type ++ typeDef d type
  | .directive directive => inputValues d .argumentRepeated directive.args

end Check

/-- The definitions of all documents, each with the name of its document. -/
def ownedDefinitions (docs : List Document) : List (String × Definition) :=
  docs.flatMap fun doc => doc.definitions.map ((doc.name, ·))

/-- Every violation in a set of documents. -/
def checkDocuments (docs : List Document) : List Diagnostic :=
  let owned := ownedDefinitions docs
  let (redefinitions, declared) := Check.Declarations.empty.addAll owned
  let inside := owned.flatMap fun (doc, definition) =>
    (Check.definition declared definition).map ((doc, ·))
  (redefinitions ++ inside).map fun (doc, position, violation) => ⟨doc, position, violation⟩

end SchemaCompiler
