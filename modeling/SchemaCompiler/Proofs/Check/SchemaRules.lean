import SchemaCompiler.Document

/-!
The rules of a schema, stated over what its documents say.

All documents together are one schema. A rule speaks of the parts of that schema: its type
definitions, the extensions of types, its directive and schema definitions, and what stands inside
these. Nothing here refers to how a checker finds out.
-/

namespace SchemaCompiler

theorem isBuiltinScalar_iff (name : String) : isBuiltinScalar name = true ↔ name ∈ builtinScalars :=
  List.contains_iff_mem

theorem isBuiltinDirective_iff (name : String) :
    isBuiltinDirective name = true ↔ name ∈ builtinDirectives :=
  List.contains_iff_mem

/-! ## The named things inside a type -/

namespace TypeKind

/-- The names that a type lists: its fields, values or members. -/
def itemNames : TypeKind → List String
  | scalar => []
  | object _ fields | interface _ fields => fields.map (·.name)
  | union members => members
  | enum values => values.map (·.name)
  | inputObject fields => fields.map (·.name)

def interfaces : TypeKind → List String
  | object implemented _ | interface implemented _ => implemented
  | _ => []

def members : TypeKind → List String
  | union members => members
  | _ => []

def values : TypeKind → List EnumValue
  | enum values => values
  | _ => []

def inputFields : TypeKind → List InputValue
  | inputObject fields => fields
  | _ => []

/-- Declared with the same keyword. -/
inductive Alike : TypeKind → TypeKind → Prop
  | scalar : Alike .scalar .scalar
  | object {i i' f f'} : Alike (.object i f) (.object i' f')
  | interface {i i' f f'} : Alike (.interface i f) (.interface i' f')
  | union {m m'} : Alike (.union m) (.union m')
  | enum {v v'} : Alike (.enum v) (.enum v')
  | inputObject {f f'} : Alike (.inputObject f) (.inputObject f')

theorem alike_iff_keyword_eq (a b : TypeKind) : Alike a b ↔ a.keyword = b.keyword := by
  constructor
  · intro h
    cases h <;> rfl
  · intro h
    cases a <;> cases b <;> first | constructor | exact absurd h (by simp [keyword])

end TypeKind

/-! ## A set of documents as one schema -/

namespace Definition

def type? : Definition → Option TypeDef
  | .type declared => some declared
  | _ => none

def extension? : Definition → Option TypeDef
  | .extend added => some added
  | _ => none

def directive? : Definition → Option DirectiveDef
  | .directive declared => some declared
  | _ => none

/-- A schema definition or a schema extension. -/
def root? : Definition → Option SchemaDef
  | .schema root => some root
  | _ => none

end Definition

namespace Schema

variable (docs : List Document)

def definitions : List Definition := docs.flatMap (·.definitions)

def types : List TypeDef := (definitions docs).filterMap Definition.type?

def extensions : List TypeDef := (definitions docs).filterMap Definition.extension?

def directives : List DirectiveDef := (definitions docs).filterMap Definition.directive?

/-- Schema definitions and schema extensions. -/
def roots : List SchemaDef := (definitions docs).filterMap Definition.root?

/-- Type definitions and the added parts of types. -/
def parts : List TypeDef := types docs ++ extensions docs

/-- Arguments and input fields, wherever they stand. -/
def inputValues : List InputValue :=
  (parts docs).flatMap (fun part => part.fields.flatMap (·.args) ++ part.kind.inputFields) ++
    (directives docs).flatMap (·.args)

/-- The directives applied anywhere. -/
def directiveUses : List DirectiveUse :=
  (roots docs).flatMap (·.directives) ++
    ((parts docs).flatMap fun part =>
      part.directives ++ part.fields.flatMap (·.directives) ++
        part.kind.values.flatMap (·.directives)) ++
      (inputValues docs).flatMap (·.directives)

/-- Some document declares a type of this name whose kind passes the test. -/
def Declares (test : TypeKind → Prop) (name : String) : Prop :=
  ∃ type ∈ types docs, type.name = name ∧ test type.kind

/-- The name is a built-in scalar's, or a declared type's whose kind passes the test. -/
def Offers (test : TypeKind → Prop) (name : String) : Prop :=
  name ∈ builtinScalars ∨ Declares docs test name

/-- The type of this name has the field, by its definition or an extension. -/
def HasField (name field : String) : Prop :=
  ∃ part ∈ parts docs, part.name = name ∧ field ∈ part.fields.map (·.name)

def KnowsDirective (name : String) : Prop :=
  name ∈ builtinDirectives ∨ ∃ directive ∈ directives docs, directive.name = name

end Schema

open Schema in
/-- What a set of documents keeps to, to be a schema. -/
structure SchemaRules (docs : List Document) : Prop where
  types_distinct : ((types docs).map (·.name)).Nodup
  types_not_builtin : ∀ type ∈ types docs, type.name ∉ builtinScalars
  directives_distinct : ((directives docs).map (·.name)).Nodup
  directives_not_builtin : ∀ directive ∈ directives docs, directive.name ∉ builtinDirectives
  one_schema : ((roots docs).filter (!·.extension)).length ≤ 1
  operations_distinct : ∀ root ∈ roots docs, (root.operations.map (·.operation)).Nodup
  operation_types : ∀ root ∈ roots docs, ∀ operation ∈ root.operations,
    Declares docs (·.isObject) operation.typeName
  items_distinct : ∀ part ∈ parts docs, part.kind.itemNames.Nodup
  field_args_distinct : ∀ part ∈ parts docs, ∀ field ∈ part.fields, (field.args.map (·.name)).Nodup
  directive_args_distinct : ∀ directive ∈ directives docs, (directive.args.map (·.name)).Nodup
  field_types : ∀ part ∈ parts docs, ∀ field ∈ part.fields,
    Offers docs (·.isOutput) field.ty.baseName
  input_types : ∀ value ∈ inputValues docs, Offers docs (·.isInput) value.ty.baseName
  member_types : ∀ part ∈ parts docs, ∀ member ∈ part.kind.members,
    Declares docs (·.isObject) member
  extension_targets : ∀ extension ∈ extensions docs,
    Declares docs (TypeKind.Alike · extension.kind) extension.name
  interfaces_declared : ∀ part ∈ parts docs, ∀ interface ∈ part.kind.interfaces,
    Declares docs (·.isInterface) interface
  interfaces_implemented : ∀ part ∈ parts docs, ∀ interface ∈ part.kind.interfaces,
    ∀ field, HasField docs interface field → HasField docs part.name field
  uses_known : ∀ use ∈ directiveUses docs, KnowsDirective docs use.name

/-! ## Sets of documents that say the same -/

open Schema in
/-- Two sets of documents with the same parts. Extensions may be said more often in one of them,
other definitions may not. -/
structure SameParts (docs docs' : List Document) : Prop where
  types : (types docs).Perm (types docs')
  directives : (directives docs).Perm (directives docs')
  schemas : ((roots docs).filter (!·.extension)).length =
    ((roots docs').filter (!·.extension)).length
  roots : ∀ root, root ∈ roots docs ↔ root ∈ Schema.roots docs'
  extensions : ∀ part, part ∈ extensions docs ↔ part ∈ Schema.extensions docs'

namespace SameParts

variable {docs docs' : List Document} (same : SameParts docs docs')
include same

theorem mem_parts (part : TypeDef) : part ∈ Schema.parts docs ↔ part ∈ Schema.parts docs' := by
  rw [Schema.parts, Schema.parts, List.mem_append, List.mem_append, same.types.mem_iff,
    same.extensions]

theorem declares (test : TypeKind → Prop) (name : String) :
    Schema.Declares docs test name ↔ Schema.Declares docs' test name := by
  simp only [Schema.Declares, same.types.mem_iff]

theorem hasField (name field : String) :
    Schema.HasField docs name field ↔ Schema.HasField docs' name field := by
  simp only [Schema.HasField, same.mem_parts]

theorem mem_inputValues (value : InputValue) :
    value ∈ Schema.inputValues docs ↔ value ∈ Schema.inputValues docs' := by
  simp only [Schema.inputValues, List.mem_append, List.mem_flatMap, same.mem_parts,
    same.directives.mem_iff]

theorem mem_directiveUses (use : DirectiveUse) :
    use ∈ Schema.directiveUses docs ↔ use ∈ Schema.directiveUses docs' := by
  simp only [Schema.directiveUses, List.mem_append, List.mem_flatMap, same.mem_parts, same.roots,
    same.mem_inputValues]

/-- The rules do not depend on the order of the parts, nor on how often an extension is said. -/
theorem rules (kept : SchemaRules docs) : SchemaRules docs' := by
  have distinct := (same.types.map (·.name)).nodup_iff.mp kept.types_distinct
  have directives_distinct := (same.directives.map (·.name)).nodup_iff.mp kept.directives_distinct
  have one_schema := same.schemas ▸ kept.one_schema
  obtain ⟨-, reserved, -, directives_reserved, -, operations, operation_types, items, field_args,
    directive_args, field_types, input_types, members, targets, interfaces, implemented, uses⟩ := kept
  simp only [same.types.mem_iff, same.directives.mem_iff, same.roots, same.mem_parts,
    same.extensions, same.mem_inputValues, same.mem_directiveUses, same.declares, same.hasField,
    Schema.Offers, Schema.KnowsDirective] at *
  exact ⟨distinct, reserved, directives_distinct, directives_reserved, one_schema, operations,
    operation_types, items, field_args, directive_args, field_types, input_types, members, targets,
    interfaces, implemented, uses⟩

end SameParts

end SchemaCompiler
