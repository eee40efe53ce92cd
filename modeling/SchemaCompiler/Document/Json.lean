import SchemaCompiler.Document
import SchemaCompiler.Json.Record

/-!
The JSON form of documents.

Members come in a fixed order. A missing description or default is left out, and what is left out
may also be missing when a document is read: lists are then empty and marks are off.
-/

namespace SchemaCompiler

open Json (Decoded)
open Json.Slots (pair required optional)

namespace Json

/-- A member that is left out when there is no value. -/
def optionalMember {α : Type} (name : String) (encode : α → Json) : Option α → List (String × Json)
  | none => []
  | some a => [(name, encode a)]

def strings (items : List String) : Json := .array (items.map .string)

end Json

/-! ## Positions, type references and constants -/

def Position.toJson (p : Position) : Json :=
  .object
    [("line", .number (.integer p.line.toNat)), ("column", .number (.integer p.column.toNat))]

def Position.ofJson : Json → Decoded Position := fun j => do
  let (line, column) ←
    (pair (required "line" Json.asUInt32) (required "column" Json.asUInt32)).decode
      "struct Position" 2 j
  return ⟨line, column⟩

def TypeRef.toJson : TypeRef → Json
  | named name => .object [("named", .string name)]
  | list inner => .object [("list", inner.toJson)]
  | nonNull inner => .object [("non_null", inner.toJson)]

def TypeRef.variants : List String := ["named", "list", "non_null"]

def TypeRef.ofJson : Json → Decoded TypeRef
  | .object [(name, j)] =>
    if name = "named" then (Json.asString j).map .named
    else if name = "list" then (TypeRef.ofJson j).map .list
    else if name = "non_null" then (TypeRef.ofJson j).map .nonNull
    else .error (.unknownVariant name variants)
  | .string name =>
    if variants.contains name then .error (.wrongType .unitVariant "newtype variant")
    else .error (.unknownVariant name variants)
  | .object _ => .error (.wrongValue .map "map with a single key")
  | j => Json.wrongType "string or map" j

namespace Value

/-- What kind of constant a JSON value holds. -/
inductive Kind where
  | int | float | string | boolean | null | enum | list | object
deriving DecidableEq, Repr

def Kind.variants : List (String × Kind) :=
  [("int", .int), ("float", .float), ("string", .string), ("boolean", .boolean), ("null", .null),
   ("enum", .enum), ("list", .list), ("object", .object)]

def tagged (kind : String) (content : Json) : Json :=
  .object [("kind", .string kind), ("value", content)]

mutual

def toJson : Value → Json
  | int text => tagged "int" (.string text)
  | float text => tagged "float" (.string text)
  | string value => tagged "string" (.string value)
  | boolean value => tagged "boolean" (.boolean value)
  | null => .object [("kind", .string "null")]
  | enum name => tagged "enum" (.string name)
  | list items => tagged "list" (.array (itemsToJson items))
  | object entries => tagged "object" (.array (entriesToJson entries))

def itemsToJson : List Value → List Json
  | [] => []
  | item :: items => item.toJson :: itemsToJson items

def entriesToJson : List (String × Value) → List Json
  | [] => []
  | (name, value) :: entries => .array [.string name, value.toJson] :: entriesToJson entries

end

/-- The content member before or after the kind is known. -/
abbrev Content := Kind → Decoded Value

/-- A constant that has a kind and no content. -/
def withoutContent : Kind → Decoded Value
  | .null => .ok .null
  | _ => .error (.missingField "value")

/-- Neither member may come again. -/
def noRepeats : List (String × Json) → Decoded Unit
  | [] => .ok ()
  | (name, _) :: members =>
    if name = "kind" ∨ name = "value" then .error (.duplicateField name) else noRepeats members

mutual

/-- A constant: an object with the members `kind` and `value` in any order, or an array of both. -/
def ofJson : Json → Decoded Value
  | .object members => ofMembers none none members
  | .array [] => .error (.wrongLength 0 "adjacently tagged enum Value")
  | .array [kind] => do
    let _ ← Json.asUnitVariant Kind.variants kind
    .error (.wrongLength 1 "adjacently tagged enum Value")
  | .array (kind :: content :: rest) => do
    let kind ← Json.asUnitVariant Kind.variants kind
    let v ← ofContent content kind
    Json.noneLeft 2 rest
    return v
  | j => Json.wrongType "adjacently tagged enum Value" j

/-- Goes through the members. Once both are known, the value is made at the later one. -/
def ofMembers (kind : Option Kind) (content : Option Content) :
    List (String × Json) → Decoded Value
  | [] =>
    match kind with
    | some kind => withoutContent kind
    | none => .error (.missingField "kind")
  | (name, j) :: members =>
    if name = "kind" then
      match kind, content with
      | some _, _ => .error (.duplicateField "kind")
      | none, none => do
        let kind ← Json.asUnitVariant Kind.variants j
        ofMembers (some kind) none members
      | none, some content => do
        let kind ← Json.asUnitVariant Kind.variants j
        let v ← content kind
        noRepeats members
        return v
    else if name = "value" then
      if content.isSome then .error (.duplicateField "value")
      else
        match kind with
        | some kind => do
          let v ← ofContent j kind
          noRepeats members
          return v
        | none => ofMembers none (some fun kind => ofContent j kind) members
    else ofMembers kind content members

def ofContent (j : Json) (kind : Kind) : Decoded Value :=
  match kind, j with
  | .int, j => (Json.asString j).map .int
  | .float, j => (Json.asString j).map .float
  | .string, j => (Json.asString j).map .string
  | .enum, j => (Json.asString j).map .enum
  | .boolean, j => (Json.asBoolean j).map .boolean
  | .null, .null => .ok .null
  | .null, j => Json.wrongType "unit variant Value::Null" j
  | .list, .array items => (ofItems items).map .list
  | .list, j => Json.wrongType "a sequence" j
  | .object, .array items => (ofEntries items).map .object
  | .object, j => Json.wrongType "a sequence" j

def ofItems : List Json → Decoded (List Value)
  | [] => .ok []
  | item :: items => do return (← ofJson item) :: (← ofItems items)

/-- Entries are arrays of a name and a constant. -/
def ofEntries : List Json → Decoded (List (String × Value))
  | [] => .ok []
  | .array [] :: _ => .error (.wrongLength 0 "a tuple of size 2")
  | .array [name] :: _ => do
    let _ ← Json.asString name
    .error (.wrongLength 1 "a tuple of size 2")
  | .array (name :: value :: rest) :: entries => do
    let name ← Json.asString name
    let v ← ofJson value
    Json.noneLeft 2 rest
    return (name, v) :: (← ofEntries entries)
  | j :: _ => Json.wrongType "a tuple of size 2" j

end

end Value

/-! ## Parts of definitions -/

def Argument.toJson (a : Argument) : Json :=
  .object [("name", .string a.name), ("value", a.value.toJson)]

def Argument.ofJson : Json → Decoded Argument := fun j => do
  let (name, value) ←
    (pair (required "name" Json.asString) (required "value" Value.ofJson)).decode
      "struct Argument" 2 j
  return ⟨name, value⟩

def DirectiveUse.toJson (u : DirectiveUse) : Json :=
  .object
    [("name", .string u.name), ("args", .array (u.args.map Argument.toJson)),
     ("position", u.position.toJson)]

def DirectiveUse.ofJson : Json → Decoded DirectiveUse := fun j => do
  let (name, args, position) ←
    (pair (required "name" Json.asString) <|
      pair (optional "args" (Json.asList Argument.ofJson) []) <|
      required "position" Position.ofJson).decode "struct DirectiveUse" 3 j
  return ⟨name, args, position⟩

namespace Json

def descriptionMember (text : Option String) : List (String × Json) :=
  optionalMember "description" .string text

def directivesMember (uses : List DirectiveUse) : String × Json :=
  ("directives", .array (uses.map DirectiveUse.toJson))

/-- Members that many records have. -/
def descriptionSlot : Slots (Option (Option String)) (Option String) :=
  optional "description" (asOptional asString) none

def directivesSlot : Slots (Option (List DirectiveUse)) (List DirectiveUse) :=
  optional "directives" (asList DirectiveUse.ofJson) []

def positionSlot : Slots (Option Position) Position := required "position" Position.ofJson

end Json

open Json (descriptionMember directivesMember descriptionSlot directivesSlot positionSlot)

def InputValue.toJson (v : InputValue) : Json :=
  .object <|
    [("name", .string v.name)] ++ descriptionMember v.description ++ [("ty", v.ty.toJson)] ++
      Json.optionalMember "default" Value.toJson v.default ++
      [directivesMember v.directives, ("position", v.position.toJson)]

def InputValue.ofJson : Json → Decoded InputValue := fun j => do
  let (name, description, ty, default, directives, position) ←
    (pair (required "name" Json.asString) <|
      pair descriptionSlot <|
      pair (required "ty" TypeRef.ofJson) <|
      pair (optional "default" (Json.asOptional Value.ofJson) none) <|
      pair directivesSlot positionSlot).decode "struct InputValue" 6 j
  return ⟨name, description, ty, default, directives, position⟩

def Field.toJson (f : Field) : Json :=
  .object <|
    [("name", .string f.name)] ++ descriptionMember f.description ++
      [("args", .array (f.args.map InputValue.toJson)), ("ty", f.ty.toJson),
       directivesMember f.directives, ("position", f.position.toJson)]

def Field.ofJson : Json → Decoded Field := fun j => do
  let (name, description, args, ty, directives, position) ←
    (pair (required "name" Json.asString) <|
      pair descriptionSlot <|
      pair (optional "args" (Json.asList InputValue.ofJson) []) <|
      pair (required "ty" TypeRef.ofJson) <|
      pair directivesSlot positionSlot).decode "struct Field" 6 j
  return ⟨name, description, args, ty, directives, position⟩

def EnumValue.toJson (v : EnumValue) : Json :=
  .object <|
    [("name", .string v.name)] ++ descriptionMember v.description ++
      [directivesMember v.directives, ("position", v.position.toJson)]

def EnumValue.ofJson : Json → Decoded EnumValue := fun j => do
  let (name, description, directives, position) ←
    (pair (required "name" Json.asString) <|
      pair descriptionSlot <|
      pair directivesSlot positionSlot).decode "struct EnumValue" 4 j
  return ⟨name, description, directives, position⟩

/-! ## Kinds of types -/

def TypeKind.toJson (kind : TypeKind) : Json :=
  let tagged (name : String) (members : List (String × Json)) : Json :=
    .object (("type", .string name) :: members)
  match kind with
  | .scalar => tagged "scalar" []
  | .object interfaces fields =>
    tagged "object"
      [("interfaces", Json.strings interfaces), ("fields", .array (fields.map Field.toJson))]
  | .interface interfaces fields =>
    tagged "interface"
      [("interfaces", Json.strings interfaces), ("fields", .array (fields.map Field.toJson))]
  | .union members => tagged "union" [("members", Json.strings members)]
  | .enum values => tagged "enum" [("values", .array (values.map EnumValue.toJson))]
  | .inputObject fields => tagged "input_object" [("fields", .array (fields.map InputValue.toJson))]

/-- How to read what a tag announces. -/
def TypeKind.decoders : List (String × (Json → Decoded TypeKind)) :=
  let names := Json.asList Json.asString
  let objectSlots :=
    pair (optional "interfaces" names []) (optional "fields" (Json.asList Field.ofJson) [])
  [("scalar", fun
      | .object _ => .ok .scalar
      | .array rest => do
        Json.noneLeft 0 rest
        return .scalar
      | j => Json.wrongType "unit variant TypeKind::Scalar" j),
   ("object", fun j => do
      let (interfaces, fields) ← objectSlots.decode "struct variant TypeKind::Object" 2 j
      return .object interfaces fields),
   ("interface", fun j => do
      let (interfaces, fields) ← objectSlots.decode "struct variant TypeKind::Interface" 2 j
      return .interface interfaces fields),
   ("union", fun j => do
      return .union
        (← (optional "members" names []).decode "struct variant TypeKind::Union" 1 j)),
   ("enum", fun j => do
      return .enum
        (← (optional "values" (Json.asList EnumValue.ofJson) []).decode
          "struct variant TypeKind::Enum" 1 j)),
   ("input_object", fun j => do
      return .inputObject
        (← (optional "fields" (Json.asList InputValue.ofJson) []).decode
          "struct variant TypeKind::InputObject" 1 j))]

/-- A tag inside a definition: a name, or its index among the names. -/
def TypeKind.decoder : Json → Decoded (Json → Decoded TypeKind)
  | .string name => Json.pickVariant decoders name
  | .number (.integer n) =>
    match n with
    | .ofNat i =>
      match decoders[i]? with
      | some (_, decode) => .ok decode
      | none =>
        .error (.wrongValue (.number (.integer i)) "variant index 0 <= i < 6")
    | n => Json.wrongType "variant identifier" (.number (.integer n))
  | j => Json.wrongType "variant identifier" j

def TypeKind.ofJson : Json → Decoded TypeKind := fun j => do
  let (decode, content) ← Json.asTagged "type" "internally tagged enum TypeKind" TypeKind.decoder j
  decode content

/-! ## Definitions -/

def Operation.variants : List (String × Operation) :=
  [("query", .query), ("mutation", .mutation), ("subscription", .subscription)]

def OperationType.toJson (o : OperationType) : Json :=
  .object
    [("operation", .string o.operation.keyword), ("type_name", .string o.typeName),
     ("position", o.position.toJson)]

def OperationType.ofJson : Json → Decoded OperationType := fun j => do
  let (operation, typeName, position) ←
    (pair (required "operation" (Json.asUnitVariant Operation.variants)) <|
      pair (required "type_name" Json.asString) positionSlot).decode "struct OperationTypeDef" 3 j
  return ⟨operation, typeName, position⟩

def SchemaDef.members (s : SchemaDef) : List (String × Json) :=
  descriptionMember s.description ++
    [("extension", .boolean s.extension), directivesMember s.directives,
     ("operations", .array (s.operations.map OperationType.toJson)),
     ("position", s.position.toJson)]

def SchemaDef.ofJson : Json → Decoded SchemaDef := fun j => do
  let (description, extension, directives, operations, position) ←
    (pair descriptionSlot <|
      pair (optional "extension" Json.asBoolean false) <|
      pair directivesSlot <|
      pair (optional "operations" (Json.asList OperationType.ofJson) [])
        positionSlot).decode "struct SchemaDef" 5 j
  return ⟨description, extension, directives, operations, position⟩

def TypeDef.members (t : TypeDef) : List (String × Json) :=
  [("name", .string t.name)] ++ descriptionMember t.description ++
    [directivesMember t.directives, ("kind", t.kind.toJson), ("position", t.position.toJson)]

def TypeDef.ofJson : Json → Decoded TypeDef := fun j => do
  let (name, description, directives, kind, position) ←
    (pair (required "name" Json.asString) <|
      pair descriptionSlot <|
      pair directivesSlot <|
      pair (required "kind" TypeKind.ofJson) positionSlot).decode "struct TypeDef" 5 j
  return ⟨name, description, directives, kind, position⟩

def DirectiveDef.members (d : DirectiveDef) : List (String × Json) :=
  [("name", .string d.name)] ++ descriptionMember d.description ++
    [("args", .array (d.args.map InputValue.toJson)), ("repeatable", .boolean d.repeatable),
     ("locations", Json.strings d.locations), ("position", d.position.toJson)]

def DirectiveDef.ofJson : Json → Decoded DirectiveDef := fun j => do
  let (name, description, args, repeatable, locations, position) ←
    (pair (required "name" Json.asString) <|
      pair descriptionSlot <|
      pair (optional "args" (Json.asList InputValue.ofJson) []) <|
      pair (optional "repeatable" Json.asBoolean false) <|
      pair (required "locations" (Json.asList Json.asString)) positionSlot).decode
        "struct DirectiveDef" 6 j
  return ⟨name, description, args, repeatable, locations, position⟩

namespace Definition

def toJson (definition : Definition) : Json :=
  let tagged (name : String) (members : List (String × Json)) : Json :=
    .object (("definition", .string name) :: members)
  match definition with
  | .schema s => tagged "schema" s.members
  | .type t => tagged "type" t.members
  | .extend t => tagged "extend" t.members
  | .directive d => tagged "directive" d.members

/-- What a tag announces. -/
inductive Tag where
  | schema | type | extend | directive
deriving DecidableEq, Repr

def Tag.variants : List (String × Tag) :=
  [("schema", .schema), ("type", .type), ("extend", .extend), ("directive", .directive)]

def Tag.ofJson : Json → Decoded Tag
  | .string name => Json.pickVariant variants name
  | j => Json.wrongType "variant identifier" j

/-- How a message calls a definition. -/
def expected : String := "internally tagged enum Definition"

def ofTagged (tag : Tag) (content : Json) : Decoded Definition :=
  match tag with
  | .schema => (SchemaDef.ofJson content).map schema
  | .type => (TypeDef.ofJson content).map type
  | .extend => (TypeDef.ofJson content).map extend
  | .directive => (DirectiveDef.ofJson content).map directive

def ofJson (j : Json) : Decoded Definition := do
  let (tag, content) ← Json.asTagged "definition" expected Tag.ofJson j
  ofTagged tag content

end Definition

/-! ## Documents -/

def Document.toJson (doc : Document) : Json :=
  .object
    [("name", .string doc.name), ("path", .string doc.path),
     ("definitions", .array (doc.definitions.map Definition.toJson))]

def Document.ofJson : Json → Decoded Document := fun j => do
  let (name, path, definitions) ←
    (pair (required "name" Json.asString) <|
      pair (required "path" Json.asString) <|
      optional "definitions" (Json.asList Definition.ofJson) []).decode "struct Document" 3 j
  return ⟨name, path, definitions⟩

end SchemaCompiler
