import SchemaCompiler.Check
import SchemaCompiler.Proofs.Check.SchemaRules

/-!
The second pass of the check: what it takes for each part of a definition to give no finding.

Every lemma is about one function of the check and says which facts about the declared names it
decides. The facts still read `type?`, the table in which the check looks names up.
-/

namespace SchemaCompiler.Check

variable (d : Declarations)

namespace Declarations

/-- The table holds a type of this name whose kind passes the test. -/
def Finds (test : TypeKind → Prop) (name : String) : Prop :=
  ∃ type, d.type? name = some type ∧ test type.kind

variable {d}

theorem not_finds {test : TypeKind → Prop} {name : String} (absent : d.type? name = none) :
    ¬ d.Finds test name := by
  rintro ⟨type, found, _⟩
  rw [absent] at found
  cases found

theorem finds_iff {test : TypeKind → Prop} {name : String} {type : TypeDef}
    (found : d.type? name = some type) : d.Finds test name ↔ test type.kind := by
  constructor
  · rintro ⟨other, h, passes⟩
    rw [found] at h
    exact Option.some.inj h ▸ passes
  · intro passes
    exact ⟨type, found, passes⟩

end Declarations

open Declarations

theorem findIf_eq_nil_iff (broken : Bool) (finding : Finding) :
    findIf broken finding = [] ↔ broken = false := by
  cases broken <;> simp [findIf]

/-! ## Repeated names -/

/-- No item is marked exactly when the keys differ from one another and from those seen. -/
theorem markRepeats_unmarked_iff {α κ : Type} [BEq κ] [LawfulBEq κ] (key : α → κ) (seen : List κ)
    (items : List α) :
    (∀ marked ∈ markRepeats key seen items, marked.2 = false) ↔
      (items.map key).Nodup ∧ ∀ item ∈ items, key item ∉ seen := by
  induction items generalizing seen with
  | nil => simp [markRepeats]
  | cons item items ih =>
    have first : seen.contains (key item) = false ↔ key item ∉ seen := by
      simp
    rw [markRepeats, List.forall_mem_cons, ih, first, List.map_cons, List.nodup_cons,
      List.forall_mem_cons]
    constructor
    · rintro ⟨new, distinct, rest⟩
      refine ⟨⟨fun h => ?_, distinct⟩, new, fun other h again => ?_⟩
      · obtain ⟨other, member, same⟩ := List.mem_map.mp h
        exact rest other member (List.mem_cons.mpr (.inl same))
      · exact rest other h (List.mem_cons_of_mem _ again)
    · rintro ⟨⟨unlike, distinct⟩, new, rest⟩
      refine ⟨new, distinct, fun other h again => ?_⟩
      rcases List.mem_cons.mp again with same | again
      · exact unlike (List.mem_map.mpr ⟨other, h, same⟩)
      · exact rest other h again

theorem markRepeats_fst {α κ : Type} [BEq κ] (key : α → κ) (seen : List κ) (items : List α) :
    (markRepeats key seen items).map (·.1) = items := by
  induction items generalizing seen with
  | nil => rfl
  | cons item items ih => rw [markRepeats, List.map_cons, ih]

/-- A loop that reports repeated keys and looks inside every item. -/
theorem flatMap_markRepeats_eq_nil_iff {α κ : Type} [BEq κ] [LawfulBEq κ] (key : α → κ)
    (items : List α) (body : α × Bool → List Finding) (repeated : α → Finding)
    (inside : α → List Finding)
    (shape : ∀ item again, body (item, again) = findIf again (repeated item) ++ inside item) :
    (markRepeats key [] items).flatMap body = [] ↔
      (items.map key).Nodup ∧ ∀ item ∈ items, inside item = [] := by
  have unmarked := markRepeats_unmarked_iff key [] items
  have visited : (∀ marked ∈ markRepeats key [] items, inside marked.1 = []) ↔
      ∀ item ∈ items, inside item = [] := by
    have h := List.forall_mem_map (f := fun marked : α × Bool => marked.1)
      (l := markRepeats key [] items) (P := fun item => inside item = [])
    rw [markRepeats_fst] at h
    exact h.symm
  simp only [List.not_mem_nil, not_false_eq_true, implies_true, and_true] at unmarked
  rw [List.flatMap_eq_nil_iff, ← unmarked, ← visited]
  constructor
  · intro clean
    have both : ∀ marked ∈ markRepeats key [] items, marked.2 = false ∧ inside marked.1 = [] := by
      intro marked member
      have h := clean marked member
      rwa [shape, List.append_eq_nil_iff, findIf_eq_nil_iff] at h
    exact ⟨fun marked member => (both marked member).1, fun marked member => (both marked member).2⟩
  · rintro ⟨unmarked, clean⟩ ⟨item, again⟩ member
    rw [shape, List.append_eq_nil_iff, findIf_eq_nil_iff]
    exact ⟨unmarked _ member, clean _ member⟩

/-! ## Uses of names -/

theorem directiveUses_eq_nil_iff (uses : List DirectiveUse) :
    directiveUses d uses = [] ↔ ∀ use ∈ uses, d.knowsDirective use.name = true := by
  simp only [directiveUses, List.flatMap_eq_nil_iff, findIf_eq_nil_iff, Bool.not_eq_eq_eq_not,
    Bool.not_false]

theorem outputRef_eq_nil_iff (place : Position) (ref : TypeRef) :
    outputRef d place ref = [] ↔
      ref.baseName ∈ builtinScalars ∨ d.Finds (·.isOutput) ref.baseName := by
  rw [← isBuiltinScalar_iff]
  by_cases builtin : isBuiltinScalar ref.baseName = true
  · simp [outputRef, builtin]
  · simp only [outputRef, builtin]
    cases h : d.type? ref.baseName with
    | none => simp [not_finds h]
    | some type => simp [finds_iff h, findIf_eq_nil_iff]

theorem inputRef_eq_nil_iff (place : Position) (ref : TypeRef) :
    inputRef d place ref = [] ↔
      ref.baseName ∈ builtinScalars ∨ d.Finds (·.isInput) ref.baseName := by
  rw [← isBuiltinScalar_iff]
  by_cases builtin : isBuiltinScalar ref.baseName = true
  · simp [inputRef, builtin]
  · simp only [inputRef, builtin]
    cases h : d.type? ref.baseName with
    | none => simp [not_finds h]
    | some type => simp [finds_iff h, findIf_eq_nil_iff]

/-! ## Parts of a definition -/

/-- What the check asks of one argument or input field. -/
def GoodValue (value : InputValue) : Prop :=
  (value.ty.baseName ∈ builtinScalars ∨ d.Finds (·.isInput) value.ty.baseName) ∧
    ∀ use ∈ value.directives, d.knowsDirective use.name = true

theorem inputValues_eq_nil_iff (repeated : String → Violation) (values : List InputValue) :
    inputValues d repeated values = [] ↔
      (values.map (·.name)).Nodup ∧ ∀ value ∈ values, GoodValue d value := by
  rw [inputValues, flatMap_markRepeats_eq_nil_iff _ _ _ _
    (fun value => inputRef d value.position value.ty ++ directiveUses d value.directives)
    (fun _ _ => List.append_assoc ..)]
  simp only [List.append_eq_nil_iff, inputRef_eq_nil_iff, directiveUses_eq_nil_iff, GoodValue]

/-- What the check asks of one field. -/
def GoodField (field : Field) : Prop :=
  (field.ty.baseName ∈ builtinScalars ∨ d.Finds (·.isOutput) field.ty.baseName) ∧
    ((field.args.map (·.name)).Nodup ∧ ∀ arg ∈ field.args, GoodValue d arg) ∧
      ∀ use ∈ field.directives, d.knowsDirective use.name = true

theorem fields_eq_nil_iff (type : String) (declared : List Field) :
    fields d type declared = [] ↔
      (declared.map (·.name)).Nodup ∧ ∀ field ∈ declared, GoodField d field := by
  rw [fields, flatMap_markRepeats_eq_nil_iff _ _ _
    (fun field => (field.position, .fieldRepeated field.name type))
    (fun field => outputRef d field.position field.ty ++
      (inputValues d .argumentRepeated field.args ++ directiveUses d field.directives))
    (fun _ _ => by simp only [List.append_assoc])]
  simp only [List.append_eq_nil_iff, outputRef_eq_nil_iff, inputValues_eq_nil_iff,
    directiveUses_eq_nil_iff, GoodField]

theorem missingFields_eq_nil_iff (type interface : String) :
    missingFields d type interface = [] ↔
      ∀ field ∈ d.fieldNames interface, field ∈ d.fieldNames type := by
  simp only [missingFields, List.filter_eq_nil_iff, List.mem_mergeSort, List.mem_eraseDups,
    Bool.not_eq_true', Bool.not_eq_false, List.contains_iff_mem]

theorem interfaces_eq_nil_iff (type : TypeDef) (implemented : List String) :
    interfaces d type implemented = [] ↔
      ∀ interface ∈ implemented, d.Finds (·.isInterface) interface ∧
        ∀ field ∈ d.fieldNames interface, field ∈ d.fieldNames type.name := by
  rw [interfaces, List.flatMap_eq_nil_iff]
  refine forall_congr' fun interface => imp_congr_right fun _ => ?_
  cases h : d.type? interface with
  | none => simp [not_finds h]
  | some declared =>
    rw [finds_iff h, ← missingFields_eq_nil_iff]
    by_cases right : declared.kind.isInterface = true <;> simp [right]

theorem unionMembers_eq_nil_iff (type : TypeDef) (members : List String) :
    unionMembers d type members = [] ↔
      members.Nodup ∧ ∀ member ∈ members, d.Finds (·.isObject) member := by
  rw [unionMembers, flatMap_markRepeats_eq_nil_iff _ _ _ _ _ (fun _ _ => rfl), List.map_id]
  refine and_congr_right fun _ => forall_congr' fun member => imp_congr_right fun _ => ?_
  cases h : d.type? member with
  | none =>
    by_cases builtin : isBuiltinScalar member = true <;> simp [not_finds h, builtin]
  | some declared => simp [finds_iff h, findIf_eq_nil_iff]

theorem enumValues_eq_nil_iff (type : String) (values : List EnumValue) :
    enumValues d type values = [] ↔
      (values.map (·.name)).Nodup ∧
        ∀ value ∈ values, ∀ use ∈ value.directives, d.knowsDirective use.name = true := by
  rw [enumValues, flatMap_markRepeats_eq_nil_iff _ _ _ _ _ (fun _ _ => rfl)]
  simp only [directiveUses_eq_nil_iff]

theorem operationTypes_eq_nil_iff (operations : List OperationType) :
    operationTypes d operations = [] ↔
      (operations.map (·.operation)).Nodup ∧
        ∀ op ∈ operations, d.Finds (·.isObject) op.typeName := by
  rw [operationTypes, flatMap_markRepeats_eq_nil_iff _ _ _ _ _ (fun _ _ => rfl)]
  refine and_congr_right fun _ => forall_congr' fun op => imp_congr_right fun _ => ?_
  cases h : d.type? op.typeName with
  | none => simp [not_finds h]
  | some type => simp [finds_iff h, findIf_eq_nil_iff]

theorem extensionTarget_eq_nil_iff (type : TypeDef) :
    extensionTarget d type = [] ↔ d.Finds (TypeKind.Alike · type.kind) type.name := by
  rw [extensionTarget]
  cases h : d.type? type.name with
  | none => simp [not_finds h]
  | some base => simp [finds_iff h, findIf_eq_nil_iff, TypeKind.alike_iff_keyword_eq]

/-! ## Definitions -/

/-- What the check asks of a type definition, and of the added part of an extension. -/
structure GoodPart (part : TypeDef) : Prop where
  uses : ∀ use ∈ part.directives, d.knowsDirective use.name = true
  distinct : part.kind.itemNames.Nodup
  fields : ∀ field ∈ part.fields, GoodField d field
  interfaces : ∀ interface ∈ part.kind.interfaces, d.Finds (·.isInterface) interface ∧
    ∀ field ∈ d.fieldNames interface, field ∈ d.fieldNames part.name
  members : ∀ member ∈ part.kind.members, d.Finds (·.isObject) member
  values : ∀ value ∈ part.kind.values, ∀ use ∈ value.directives,
    d.knowsDirective use.name = true
  inputFields : ∀ field ∈ part.kind.inputFields, GoodValue d field

theorem typeDef_eq_nil_iff (part : TypeDef) : typeDef d part = [] ↔ GoodPart d part := by
  obtain ⟨name, description, directives, kind, position⟩ := part
  rw [typeDef, List.append_eq_nil_iff, directiveUses_eq_nil_iff]
  constructor
  · rintro ⟨uses, inside⟩
    cases kind with
    | scalar => exact ⟨uses, .nil, nofun, nofun, nofun, nofun, nofun⟩
    | object implemented declared =>
      rw [List.append_eq_nil_iff, fields_eq_nil_iff, interfaces_eq_nil_iff] at inside
      exact ⟨uses, inside.1.1, inside.1.2, inside.2, nofun, nofun, nofun⟩
    | interface implemented declared =>
      rw [List.append_eq_nil_iff, fields_eq_nil_iff, interfaces_eq_nil_iff] at inside
      exact ⟨uses, inside.1.1, inside.1.2, inside.2, nofun, nofun, nofun⟩
    | union members =>
      rw [unionMembers_eq_nil_iff] at inside
      exact ⟨uses, inside.1, nofun, nofun, inside.2, nofun, nofun⟩
    | enum values =>
      rw [enumValues_eq_nil_iff] at inside
      exact ⟨uses, inside.1, nofun, nofun, nofun, inside.2, nofun⟩
    | inputObject declared =>
      rw [inputValues_eq_nil_iff] at inside
      exact ⟨uses, inside.1, nofun, nofun, nofun, nofun, inside.2⟩
  · rintro ⟨uses, distinct, fields, interfaces, members, values, inputFields⟩
    refine ⟨uses, ?_⟩
    cases kind with
    | scalar => rfl
    | object implemented declared =>
      rw [List.append_eq_nil_iff, fields_eq_nil_iff, interfaces_eq_nil_iff]
      exact ⟨⟨distinct, fields⟩, interfaces⟩
    | interface implemented declared =>
      rw [List.append_eq_nil_iff, fields_eq_nil_iff, interfaces_eq_nil_iff]
      exact ⟨⟨distinct, fields⟩, interfaces⟩
    | union listed =>
      rw [unionMembers_eq_nil_iff]
      exact ⟨distinct, members⟩
    | enum listed =>
      rw [enumValues_eq_nil_iff]
      exact ⟨distinct, values⟩
    | inputObject declared =>
      rw [inputValues_eq_nil_iff]
      exact ⟨distinct, inputFields⟩

/-- What the check asks of a definition, besides a free name. -/
def GoodDefinition : Definition → Prop
  | .schema schema =>
    (∀ use ∈ schema.directives, d.knowsDirective use.name = true) ∧
      (schema.operations.map (·.operation)).Nodup ∧
        ∀ op ∈ schema.operations, d.Finds (·.isObject) op.typeName
  | .type type => GoodPart d type
  | .extend type => d.Finds (TypeKind.Alike · type.kind) type.name ∧ GoodPart d type
  | .directive directive =>
    (directive.args.map (·.name)).Nodup ∧ ∀ arg ∈ directive.args, GoodValue d arg

theorem definition_eq_nil_iff (part : Definition) :
    definition d part = [] ↔ GoodDefinition d part := by
  cases part with
  | schema schema =>
    rw [definition, List.append_eq_nil_iff, directiveUses_eq_nil_iff, operationTypes_eq_nil_iff,
      GoodDefinition]
  | type type => exact typeDef_eq_nil_iff d type
  | extend type =>
    rw [definition, List.append_eq_nil_iff, extensionTarget_eq_nil_iff, typeDef_eq_nil_iff,
      GoodDefinition]
  | directive directive => exact inputValues_eq_nil_iff d _ directive.args

end SchemaCompiler.Check
