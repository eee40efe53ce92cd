import SchemaCompiler.Document

/-!
Definitions that stand somewhere else: every place in them is moved, and nothing else changes.
-/

namespace SchemaCompiler

variable (f : Position → Position)

def DirectiveUse.moved (use : DirectiveUse) : DirectiveUse :=
  { use with position := f use.position }

def InputValue.moved (value : InputValue) : InputValue :=
  { value with
    directives := value.directives.map (DirectiveUse.moved f)
    position := f value.position }

def Field.moved (field : Field) : Field :=
  { field with
    args := field.args.map (InputValue.moved f)
    directives := field.directives.map (DirectiveUse.moved f)
    position := f field.position }

def EnumValue.moved (value : EnumValue) : EnumValue :=
  { value with
    directives := value.directives.map (DirectiveUse.moved f)
    position := f value.position }

def OperationType.moved (operation : OperationType) : OperationType :=
  { operation with position := f operation.position }

def TypeKind.moved : TypeKind → TypeKind
  | scalar => scalar
  | object interfaces fields => object interfaces (fields.map (Field.moved f))
  | interface interfaces fields => interface interfaces (fields.map (Field.moved f))
  | union members => union members
  | enum values => enum (values.map (EnumValue.moved f))
  | inputObject fields => inputObject (fields.map (InputValue.moved f))

def TypeDef.moved (type : TypeDef) : TypeDef :=
  { type with
    directives := type.directives.map (DirectiveUse.moved f)
    kind := type.kind.moved f
    position := f type.position }

def SchemaDef.moved (schema : SchemaDef) : SchemaDef :=
  { schema with
    directives := schema.directives.map (DirectiveUse.moved f)
    operations := schema.operations.map (OperationType.moved f)
    position := f schema.position }

def DirectiveDef.moved (directive : DirectiveDef) : DirectiveDef :=
  { directive with
    args := directive.args.map (InputValue.moved f)
    position := f directive.position }

def Definition.moved : Definition → Definition
  | .schema root => .schema (root.moved f)
  | .type declared => .type (declared.moved f)
  | .extend added => .extend (added.moved f)
  | .directive declared => .directive (declared.moved f)

/-! ## Where nothing is moved -/

theorem DirectiveUse.moved_id : DirectiveUse.moved id = id := rfl

theorem InputValue.moved_id : InputValue.moved id = id := by
  funext value
  simp only [moved, DirectiveUse.moved_id, List.map_id, id]

theorem Field.moved_id : Field.moved id = id := by
  funext field
  simp only [moved, InputValue.moved_id, DirectiveUse.moved_id, List.map_id, id]

theorem EnumValue.moved_id : EnumValue.moved id = id := by
  funext value
  simp only [moved, DirectiveUse.moved_id, List.map_id, id]

theorem TypeKind.moved_id (kind : TypeKind) : kind.moved id = kind := by
  cases kind <;>
    simp only [moved, Field.moved_id, EnumValue.moved_id, InputValue.moved_id, List.map_id]

theorem TypeDef.moved_id : TypeDef.moved id = id := by
  funext type
  simp only [moved, DirectiveUse.moved_id, TypeKind.moved_id, List.map_id, id]

theorem OperationType.moved_id : OperationType.moved id = id := rfl

theorem SchemaDef.moved_id : SchemaDef.moved id = id := by
  funext schema
  simp only [moved, DirectiveUse.moved_id, OperationType.moved_id, List.map_id, id]

theorem DirectiveDef.moved_id : DirectiveDef.moved id = id := by
  funext directive
  simp only [moved, InputValue.moved_id, List.map_id, id]

theorem Definition.moved_id : Definition.moved id = id := by
  funext definition
  cases definition <;>
    simp only [moved, SchemaDef.moved_id, TypeDef.moved_id, DirectiveDef.moved_id, id]

end SchemaCompiler
