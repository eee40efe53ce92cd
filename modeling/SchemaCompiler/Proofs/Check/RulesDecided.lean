import SchemaCompiler.Proofs.Check.Collection
import SchemaCompiler.Proofs.Check.Findings

/-!
The check decides the rules of a schema.

When the first pass has no findings, its table holds just what the documents declare, and looking a
name up in it is asking the documents. What the second pass asks of every definition is then the
rest of the rules, collected from the places where they stand.
-/

namespace SchemaCompiler

open Schema
open Check (Declarations GoodValue GoodField GoodPart GoodDefinition)

variable {docs : List Document}

/-! ## The table of a clean first pass -/

/-- What the documents declare, whether or not a name is declared twice. -/
def declarations (docs : List Document) : Declarations :=
  (definitions docs).foldl Declarations.declare .empty

theorem owned_snd (docs : List Document) :
    (ownedDefinitions docs).map (·.2) = definitions docs := by
  have h (doc : Document) : (doc.definitions.map ((doc.name, ·))).map (·.2) = doc.definitions := by
    rw [List.map_map]
    exact List.map_id doc.definitions
  rw [ownedDefinitions, definitions, List.map_flatMap]
  simp only [h]

theorem declarations_types (docs : List Document) : (declarations docs).types = types docs :=
  Declarations.foldl_declare_types _ _

theorem declarations_extensions (docs : List Document) :
    (declarations docs).extensions = extensions docs :=
  Declarations.foldl_declare_extensions _ _

theorem declarations_directives (docs : List Document) :
    (declarations docs).directives = (directives docs).map (·.name) :=
  Declarations.foldl_declare_directives _ _

theorem type?_eq_some_iff (distinct : ((types docs).map (·.name)).Nodup) (name : String)
    (type : TypeDef) :
    (declarations docs).type? name = some type ↔ type ∈ types docs ∧ type.name = name := by
  rw [Declarations.type?, declarations_types]
  generalize types docs = declared at distinct
  induction declared with
  | nil => simp
  | cons first rest ih =>
    rw [List.map_cons, List.nodup_cons] at distinct
    rw [List.find?_cons, List.mem_cons]
    by_cases same : first.name = name
    · have absent : ¬ (type ∈ rest ∧ type.name = name) := by
        rintro ⟨member, h⟩
        exact distinct.1 (List.mem_map.mpr ⟨type, member, h.trans same.symm⟩)
      rw [or_and_right, or_iff_left absent]
      simp only [same, BEq.rfl, Option.some.injEq]
      constructor
      · rintro rfl
        exact ⟨rfl, same⟩
      · rintro ⟨rfl, -⟩
        rfl
    · have other : ¬ (type = first ∧ type.name = name) := by
        rintro ⟨rfl, h⟩
        exact same h
      rw [or_and_right, or_iff_right other, ← ih distinct.2]
      simp only [beq_eq_false_iff_ne.mpr same]

theorem finds_iff_declares (distinct : ((types docs).map (·.name)).Nodup)
    (test : TypeKind → Prop) (name : String) :
    (declarations docs).Finds test name ↔ Declares docs test name := by
  simp only [Declarations.Finds, Declares, type?_eq_some_iff distinct, and_assoc]

theorem knowsDirective_iff_known (docs : List Document) (name : String) :
    (declarations docs).knowsDirective name = true ↔ KnowsDirective docs name := by
  rw [Declarations.knowsDirective_iff, declarations_directives, KnowsDirective, List.mem_map]

theorem mem_fieldNames_iff (distinct : ((types docs).map (·.name)).Nodup) (name field : String) :
    field ∈ (declarations docs).fieldNames name ↔ HasField docs name field := by
  have named (part : TypeDef) : part ∈ ((declarations docs).type? name).toList ++
      (declarations docs).extensions.filter (·.name == name) ↔
        part ∈ parts docs ∧ part.name = name := by
    rw [List.mem_append, Option.mem_toList, type?_eq_some_iff distinct, declarations_extensions,
      List.mem_filter, beq_iff_eq, parts, List.mem_append, or_and_right]
  simp only [Declarations.fieldNames, HasField, List.mem_flatMap, named, and_assoc]

/-! ## Rules by the place where they apply -/

theorem forall_definitions_iff (docs : List Document) (p : Definition → Prop) :
    (∀ definition ∈ definitions docs, p definition) ↔
      (∀ type ∈ types docs, p (.type type)) ∧ (∀ type ∈ extensions docs, p (.extend type)) ∧
        (∀ root ∈ roots docs, p (.schema root)) ∧
          ∀ directive ∈ directives docs, p (.directive directive) := by
  simp only [types, extensions, roots, directives, List.mem_filterMap]
  constructor
  · intro h
    refine ⟨?_, ?_, ?_, ?_⟩ <;> rintro part ⟨definition, member, found⟩ <;>
      cases definition <;> cases found <;> exact h _ member
  · rintro ⟨type, extension, root, directive⟩ definition member
    cases definition with
    | schema declared => exact root declared ⟨_, member, rfl⟩
    | type declared => exact type declared ⟨_, member, rfl⟩
    | extend declared => exact extension declared ⟨_, member, rfl⟩
    | directive declared => exact directive declared ⟨_, member, rfl⟩

theorem forall_inputValues_iff (docs : List Document) (p : InputValue → Prop) :
    (∀ value ∈ inputValues docs, p value) ↔
      (∀ part ∈ parts docs, (∀ field ∈ part.fields, ∀ arg ∈ field.args, p arg) ∧
        ∀ field ∈ part.kind.inputFields, p field) ∧
      ∀ directive ∈ directives docs, ∀ arg ∈ directive.args, p arg := by
  simp only [inputValues, List.forall_mem_append, List.forall_mem_flatMap]

theorem forall_directiveUses_iff (docs : List Document) (p : DirectiveUse → Prop) :
    (∀ use ∈ directiveUses docs, p use) ↔
      ((∀ root ∈ roots docs, ∀ use ∈ root.directives, p use) ∧
        ∀ part ∈ parts docs, ((∀ use ∈ part.directives, p use) ∧
          ∀ field ∈ part.fields, ∀ use ∈ field.directives, p use) ∧
            ∀ value ∈ part.kind.values, ∀ use ∈ value.directives, p use) ∧
      ∀ value ∈ inputValues docs, ∀ use ∈ value.directives, p use := by
  simp only [directiveUses, List.forall_mem_append, List.forall_mem_flatMap]

/-! ## The second pass in terms of the documents -/

section

variable (distinct : ((types docs).map (·.name)).Nodup)
include distinct

theorem goodValue_iff (value : InputValue) :
    GoodValue (declarations docs) value ↔
      Offers docs (·.isInput) value.ty.baseName ∧
        ∀ use ∈ value.directives, KnowsDirective docs use.name := by
  simp only [GoodValue, Offers, finds_iff_declares distinct, knowsDirective_iff_known]

theorem goodField_iff (field : Field) :
    GoodField (declarations docs) field ↔
      Offers docs (·.isOutput) field.ty.baseName ∧
        ((field.args.map (·.name)).Nodup ∧ ∀ arg ∈ field.args, GoodValue (declarations docs) arg) ∧
          ∀ use ∈ field.directives, KnowsDirective docs use.name := by
  simp only [GoodField, Offers, finds_iff_declares distinct, knowsDirective_iff_known]

end

namespace SchemaRules

variable (rules : SchemaRules docs)
include rules

theorem value_good : ∀ value ∈ Schema.inputValues docs, GoodValue (declarations docs) value := by
  intro value member
  have known := ((forall_directiveUses_iff docs _).mp rules.uses_known).2
  exact (goodValue_iff rules.types_distinct value).mpr
    ⟨rules.input_types value member, known value member⟩

theorem part_good : ∀ part ∈ parts docs, GoodPart (declarations docs) part := by
  intro part member
  have known := ((forall_directiveUses_iff docs _).mp rules.uses_known).1.2 part member
  have values := ((forall_inputValues_iff docs _).mp rules.value_good).1 part member
  refine ⟨?uses, rules.items_distinct part member, ?fields, ?interfaces, ?members, ?values, values.2⟩
  case uses =>
    simp only [knowsDirective_iff_known]
    exact known.1.1
  case fields =>
    intro field inside
    exact (goodField_iff rules.types_distinct field).mpr
      ⟨rules.field_types part member field inside,
        ⟨rules.field_args_distinct part member field inside, values.1 field inside⟩,
        known.1.2 field inside⟩
  case interfaces =>
    intro interface inside
    simp only [finds_iff_declares rules.types_distinct, mem_fieldNames_iff rules.types_distinct]
    exact ⟨rules.interfaces_declared part member interface inside,
      rules.interfaces_implemented part member interface inside⟩
  case members =>
    simp only [finds_iff_declares rules.types_distinct]
    exact rules.member_types part member
  case values =>
    simp only [knowsDirective_iff_known]
    exact known.2

/-- Every definition of a schema passes the second pass. -/
theorem good : ∀ definition ∈ definitions docs, GoodDefinition (declarations docs) definition := by
  have known := ((forall_directiveUses_iff docs _).mp rules.uses_known).1.1
  have values := ((forall_inputValues_iff docs _).mp rules.value_good).2
  rw [forall_definitions_iff]
  simp only [GoodDefinition, finds_iff_declares rules.types_distinct, knowsDirective_iff_known]
  refine ⟨?types, ?extensions, ?roots, ?directives⟩
  case types =>
    intro type member
    exact rules.part_good type (List.mem_append_left _ member)
  case extensions =>
    intro type member
    exact ⟨rules.extension_targets type member,
      rules.part_good type (List.mem_append_right _ member)⟩
  case roots =>
    intro root member
    exact ⟨known root member, rules.operations_distinct root member,
      rules.operation_types root member⟩
  case directives =>
    intro directive member
    exact ⟨rules.directive_args_distinct directive member, values directive member⟩

end SchemaRules

/-- Documents whose declared names are free keep the rules when the second pass has no findings. -/
theorem schemaRules_of_good (distinct : ((types docs).map (·.name)).Nodup)
    (reserved : ∀ type ∈ types docs, type.name ∉ builtinScalars)
    (directives_distinct : ((directives docs).map (·.name)).Nodup)
    (directives_reserved : ∀ directive ∈ directives docs, directive.name ∉ builtinDirectives)
    (one_schema : ((roots docs).filter (!·.extension)).length ≤ 1)
    (good : ∀ definition ∈ definitions docs, GoodDefinition (declarations docs) definition) :
    SchemaRules docs := by
  rw [forall_definitions_iff] at good
  simp only [GoodDefinition, finds_iff_declares distinct, knowsDirective_iff_known] at good
  obtain ⟨types_good, extensions_good, roots_good, directives_good⟩ := good
  have part : ∀ part ∈ parts docs, GoodPart (declarations docs) part := by
    intro part member
    rcases List.mem_append.mp member with declared | added
    · exact types_good part declared
    · exact (extensions_good part added).2
  have field : ∀ part ∈ parts docs, ∀ field ∈ part.fields, _ := fun whole member field inside =>
    (goodField_iff distinct field).mp ((part whole member).fields field inside)
  have value : ∀ value ∈ Schema.inputValues docs, Offers docs (·.isInput) value.ty.baseName ∧
      ∀ use ∈ value.directives, KnowsDirective docs use.name := by
    intro value member
    refine (goodValue_iff distinct value).mp ?_
    refine (forall_inputValues_iff docs (GoodValue (declarations docs))).mpr ⟨?_, ?_⟩ value member
    · intro whole member
      exact ⟨fun inner inside => (field whole member inner inside).2.1.2,
        (part whole member).inputFields⟩
    · intro directive member
      exact (directives_good directive member).2
  exact {
    types_distinct := distinct
    types_not_builtin := reserved
    directives_distinct := directives_distinct
    directives_not_builtin := directives_reserved
    one_schema := one_schema
    operations_distinct := fun root member => (roots_good root member).2.1
    operation_types := fun root member => (roots_good root member).2.2
    items_distinct := fun whole member => (part whole member).distinct
    field_args_distinct := fun whole member inner inside => (field whole member inner inside).2.1.1
    directive_args_distinct := fun directive member => (directives_good directive member).1
    field_types := fun whole member inner inside => (field whole member inner inside).1
    input_types := fun value' member => (value value' member).1
    member_types := by
      intro whole member
      simpa only [finds_iff_declares distinct] using (part whole member).members
    extension_targets := fun type member => (extensions_good type member).1
    interfaces_declared := by
      intro whole member interface inside
      have h := ((part whole member).interfaces interface inside).1
      exact (finds_iff_declares distinct _ _).mp h
    interfaces_implemented := by
      intro whole member interface inside
      simpa only [mem_fieldNames_iff distinct] using
        ((part whole member).interfaces interface inside).2
    uses_known := by
      rw [forall_directiveUses_iff]
      refine ⟨⟨fun root member => (roots_good root member).1, fun whole member => ?_⟩,
        fun value' member => (value value' member).2⟩
      refine ⟨⟨?_, fun inner inside => (field whole member inner inside).2.2⟩, ?_⟩
      · simpa only [knowsDirective_iff_known] using (part whole member).uses
      · simpa only [knowsDirective_iff_known] using (part whole member).values }

/-! ## The whole check -/

/-- The first pass has no findings exactly when the declared names are free and distinct. -/
theorem admitsAll_definitions_iff (docs : List Document) :
    Declarations.empty.AdmitsAll (definitions docs) ↔
      (((types docs).map (·.name)).Nodup ∧ ∀ type ∈ types docs, type.name ∉ builtinScalars) ∧
      (((directives docs).map (·.name)).Nodup ∧
        ∀ directive ∈ directives docs, directive.name ∉ builtinDirectives) ∧
      ((roots docs).filter (!·.extension)).length ≤ 1 := by
  rw [Declarations.admitsAll_iff]
  simp only [Declarations.FreshNames, Declarations.empty, List.map_nil, List.not_mem_nil,
    not_false_eq_true, and_true, List.forall_mem_map, types, directives, roots,
    Bool.false_eq_true, if_false]

theorem checkDocuments_eq_nil_iff_clean (docs : List Document) :
    checkDocuments docs = [] ↔
      Declarations.empty.AdmitsAll (definitions docs) ∧
        ∀ definition ∈ definitions docs, GoodDefinition (declarations docs) definition := by
  have first := Declarations.empty.addAll_fst_eq_nil_iff (ownedDefinitions docs)
  rw [owned_snd] at first
  rw [checkDocuments, List.map_eq_nil_iff, List.append_eq_nil_iff, first]
  refine and_congr_right fun free => ?_
  have table : (Declarations.empty.addAll (ownedDefinitions docs)).2 = declarations docs := by
    rw [← owned_snd] at free
    rw [Declarations.addAll_of_admitsAll free, owned_snd, declarations]
  rw [table, List.flatMap_eq_nil_iff, ← owned_snd]
  simp only [List.forall_mem_map, List.map_eq_nil_iff, Check.definition_eq_nil_iff]

/-- The check is sound: what it accepts keeps every rule. -/
theorem schemaRules_of_accepted (accepted : checkDocuments docs = []) : SchemaRules docs := by
  rw [checkDocuments_eq_nil_iff_clean, admitsAll_definitions_iff] at accepted
  obtain ⟨⟨⟨distinct, reserved⟩, ⟨directives_distinct, directives_reserved⟩, one_schema⟩, good⟩ :=
    accepted
  exact schemaRules_of_good distinct reserved directives_distinct directives_reserved one_schema good

/-- The check is complete: it has nothing to report about a schema. -/
theorem SchemaRules.accepted (rules : SchemaRules docs) : checkDocuments docs = [] := by
  rw [checkDocuments_eq_nil_iff_clean, admitsAll_definitions_iff]
  exact ⟨⟨⟨rules.types_distinct, rules.types_not_builtin⟩,
    ⟨rules.directives_distinct, rules.directives_not_builtin⟩, rules.one_schema⟩, rules.good⟩

/-- A set of documents passes the check exactly when it keeps the rules of a schema. -/
theorem checkDocuments_eq_nil_iff (docs : List Document) :
    checkDocuments docs = [] ↔ SchemaRules docs :=
  ⟨schemaRules_of_accepted, SchemaRules.accepted⟩

end SchemaCompiler
