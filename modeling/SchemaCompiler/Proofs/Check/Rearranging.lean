import Mathlib.Data.List.Perm.Basic
import SchemaCompiler.Proofs.Check.RulesDecided

/-!
Definitions in another order, or in other documents.

The first pass takes the definitions as they come, so its table depends on their order. Yet the
second pass asks that table only for the type of a name, for known directives and for the fields of
a type with its extensions; where no name is declared twice, the answers do not depend on the order.
So the check finds the same, only in another order, and it accepts a set of documents however its
definitions are arranged.
-/

namespace SchemaCompiler

/-! ## Sorted names -/

theorem nodup_eraseDups {α : Type} [BEq α] [LawfulBEq α] (items : List α) :
    items.eraseDups.Nodup := by
  induction h : items.length using Nat.strongRecOn generalizing items with
  | ind n ih =>
    cases items with
    | nil => exact List.nodup_nil
    | cons item items =>
      rw [List.eraseDups_cons, List.nodup_cons]
      have shorter : (items.filter fun other => !other == item).length < n := by
        rw [← h]
        exact Nat.lt_succ_of_le (List.length_filter_le _ _)
      refine ⟨fun member => ?_, ih _ shorter _ rfl⟩
      simp [List.mem_eraseDups] at member

/-- Names sorted without repeats depend only on which names there are. -/
theorem mergeSort_eraseDups_congr {names names' : List String}
    (same : ∀ name, name ∈ names ↔ name ∈ names') :
    names.eraseDups.mergeSort (fun a b => decide (a ≤ b)) =
      names'.eraseDups.mergeSort (fun a b => decide (a ≤ b)) := by
  have sorted (l : List String) :
      (l.mergeSort fun a b => decide (a ≤ b)).Pairwise fun a b => decide (a ≤ b) = true := by
    refine List.pairwise_mergeSort (fun a b c => ?_) (fun a b => ?_) l
    · simpa using String.le_trans
    · simpa using String.le_total a b
  have alike : names.eraseDups.Perm names'.eraseDups :=
    (List.perm_ext_iff_of_nodup (nodup_eraseDups _) (nodup_eraseDups _)).mpr fun name => by
      rw [List.mem_eraseDups, List.mem_eraseDups, same]
  refine List.Perm.eq_of_pairwise (fun a b _ _ before behind => ?_) (sorted _) (sorted _)
    (((List.mergeSort_perm _ _).trans alike).trans (List.mergeSort_perm _ _).symm)
  exact String.le_antisymm (of_decide_eq_true before) (of_decide_eq_true behind)

namespace Check

/-! ## Tables that answer alike -/

namespace Declarations

/-- The second pass gets the same answers from both tables. -/
structure Agrees (d d' : Declarations) : Prop where
  type? : ∀ name, d.type? name = d'.type? name
  knowsDirective : ∀ name, d.knowsDirective name = d'.knowsDirective name
  fieldNames : ∀ type field, field ∈ d.fieldNames type ↔ field ∈ d'.fieldNames type

end Declarations

section

variable {d d' : Declarations} (agrees : d.Agrees d')
include agrees

theorem directiveUses_congr (uses : List DirectiveUse) :
    directiveUses d uses = directiveUses d' uses := by
  simp only [directiveUses, agrees.knowsDirective]

theorem outputRef_congr (place : Position) (ref : TypeRef) :
    outputRef d place ref = outputRef d' place ref := by
  simp only [outputRef, agrees.type?]

theorem inputRef_congr (place : Position) (ref : TypeRef) :
    inputRef d place ref = inputRef d' place ref := by
  simp only [inputRef, agrees.type?]

theorem inputValues_congr (repeated : String → Violation) (values : List InputValue) :
    inputValues d repeated values = inputValues d' repeated values := by
  simp only [inputValues, inputRef_congr agrees, directiveUses_congr agrees]

theorem fields_congr (type : String) (declared : List Field) :
    fields d type declared = fields d' type declared := by
  simp only [fields, outputRef_congr agrees, inputValues_congr agrees, directiveUses_congr agrees]

theorem missingFields_congr (type interface : String) :
    missingFields d type interface = missingFields d' type interface := by
  have lacks (field : String) :
      (d.fieldNames type).contains field = (d'.fieldNames type).contains field := by
    rw [Bool.eq_iff_iff, List.contains_iff_mem, List.contains_iff_mem, agrees.fieldNames]
  simp only [missingFields, lacks, mergeSort_eraseDups_congr (agrees.fieldNames interface)]

theorem interfaces_congr (type : TypeDef) (implemented : List String) :
    interfaces d type implemented = interfaces d' type implemented := by
  simp only [interfaces, agrees.type?, missingFields_congr agrees]

theorem unionMembers_congr (type : TypeDef) (members : List String) :
    unionMembers d type members = unionMembers d' type members := by
  simp only [unionMembers, agrees.type?]

theorem enumValues_congr (type : String) (values : List EnumValue) :
    enumValues d type values = enumValues d' type values := by
  simp only [enumValues, directiveUses_congr agrees]

theorem typeDef_congr (type : TypeDef) : typeDef d type = typeDef d' type := by
  simp only [typeDef, directiveUses_congr agrees, fields_congr agrees, interfaces_congr agrees,
    unionMembers_congr agrees, enumValues_congr agrees, inputValues_congr agrees]

theorem extensionTarget_congr (type : TypeDef) :
    extensionTarget d type = extensionTarget d' type := by
  simp only [extensionTarget, agrees.type?]

theorem operationTypes_congr (operations : List OperationType) :
    operationTypes d operations = operationTypes d' operations := by
  simp only [operationTypes, agrees.type?]

/-- What is found inside a definition depends on what the table answers. -/
theorem definition_congr (part : Definition) : definition d part = definition d' part := by
  cases part with
  | schema schema =>
    simp only [definition, directiveUses_congr agrees, operationTypes_congr agrees]
  | type type => exact typeDef_congr agrees type
  | extend type => simp only [definition, extensionTarget_congr agrees, typeDef_congr agrees]
  | directive directive => exact inputValues_congr agrees _ _

end

end Check

/-! ## Documents with the same definitions -/

open Schema
open Check (Declarations)

variable {docs docs' : List Document}

namespace Schema

/-- No type, directive or schema is defined twice, and nothing built in is defined again. -/
structure DefinedOnce (docs : List Document) : Prop where
  types_distinct : ((types docs).map (·.name)).Nodup
  types_not_builtin : ∀ type ∈ types docs, type.name ∉ builtinScalars
  directives_distinct : ((directives docs).map (·.name)).Nodup
  directives_not_builtin : ∀ directive ∈ directives docs, directive.name ∉ builtinDirectives
  one_schema : ((roots docs).filter (!·.extension)).length ≤ 1

end Schema

section

variable (moved : (definitions docs).Perm (definitions docs'))
include moved

theorem sameParts_of_perm : SameParts docs docs' where
  types := moved.filterMap _
  directives := moved.filterMap _
  schemas := ((moved.filterMap Definition.root?).filter _).length_eq
  roots := fun _ => (moved.filterMap Definition.root?).mem_iff
  extensions := fun _ => (moved.filterMap Definition.extension?).mem_iff

theorem Schema.DefinedOnce.of_perm (once : DefinedOnce docs) : DefinedOnce docs' where
  types_distinct := (((sameParts_of_perm moved).types.map _).nodup_iff).mp once.types_distinct
  types_not_builtin := fun type member =>
    once.types_not_builtin type ((sameParts_of_perm moved).types.mem_iff.mpr member)
  directives_distinct :=
    (((sameParts_of_perm moved).directives.map _).nodup_iff).mp once.directives_distinct
  directives_not_builtin := fun directive member =>
    once.directives_not_builtin directive ((sameParts_of_perm moved).directives.mem_iff.mpr member)
  one_schema := (sameParts_of_perm moved).schemas ▸ once.one_schema

/-- Where every type is defined once, it is found in either order. -/
theorem type?_eq_of_perm (distinct : ((types docs).map (·.name)).Nodup) (name : String) :
    (declarations docs).type? name = (declarations docs').type? name := by
  have same := sameParts_of_perm moved
  have distinct' := ((same.types.map (·.name)).nodup_iff).mp distinct
  ext type
  rw [type?_eq_some_iff distinct, type?_eq_some_iff distinct', same.types.mem_iff]

theorem declarations_agree (distinct : ((types docs).map (·.name)).Nodup) :
    (declarations docs).Agrees (declarations docs') := by
  have same := sameParts_of_perm moved
  have distinct' := ((same.types.map (·.name)).nodup_iff).mp distinct
  refine ⟨type?_eq_of_perm moved distinct, fun name => ?_, fun type field => ?_⟩
  · rw [Bool.eq_iff_iff, knowsDirective_iff_known, knowsDirective_iff_known, KnowsDirective,
      KnowsDirective]
    simp only [same.directives.mem_iff]
  · rw [mem_fieldNames_iff distinct, mem_fieldNames_iff distinct', same.hasField]

end

/-- Where everything is defined once, the first pass declares all of it and finds nothing. -/
theorem Schema.DefinedOnce.addAll_owned (once : DefinedOnce docs) :
    Declarations.empty.addAll (ownedDefinitions docs) = ([], declarations docs) := by
  have free : Declarations.empty.AdmitsAll ((ownedDefinitions docs).map (·.2)) := by
    rw [owned_snd, admitsAll_definitions_iff]
    exact ⟨⟨once.types_distinct, once.types_not_builtin⟩,
      ⟨once.directives_distinct, once.directives_not_builtin⟩, once.one_schema⟩
  rw [Declarations.addAll_of_admitsAll free, owned_snd, declarations]

/-- Then the check reports what is found inside the definitions, one after another. -/
theorem Schema.DefinedOnce.findings (once : DefinedOnce docs) :
    (checkDocuments docs).map (fun d => (d.position, d.violation)) =
      (definitions docs).flatMap (Check.definition (declarations docs)) := by
  have inside (owned : String × Definition) :
      (((Check.definition (declarations docs) owned.2).map ((owned.1, ·))).map
          fun found => (⟨found.1, found.2.1, found.2.2⟩ : Diagnostic)).map
        (fun d => (d.position, d.violation)) =
        Check.definition (declarations docs) owned.2 := by
    rw [List.map_map, List.map_map]
    exact List.map_id _
  rw [checkDocuments, once.addAll_owned, ← owned_snd, List.flatMap_map]
  simp only [List.nil_append, List.map_flatMap, inside]

/-- The check accepts documents exactly when it accepts those in which the same definitions are
arranged in another way; and where everything is defined once, it reports the same at the same
places. -/
theorem checkDocuments_of_perm (moved : (definitions docs).Perm (definitions docs')) :
    (checkDocuments docs = [] ↔ checkDocuments docs' = []) ∧
      (DefinedOnce docs →
        ((checkDocuments docs).map fun d => (d.position, d.violation.message)).Perm
          ((checkDocuments docs').map fun d => (d.position, d.violation.message))) := by
  constructor
  · rw [checkDocuments_eq_nil_iff, checkDocuments_eq_nil_iff]
    exact ⟨(sameParts_of_perm moved).rules, (sameParts_of_perm moved.symm).rules⟩
  · intro once
    have agree := declarations_agree moved once.types_distinct
    have found : ((checkDocuments docs).map fun d => (d.position, d.violation)).Perm
        ((checkDocuments docs').map fun d => (d.position, d.violation)) := by
      rw [once.findings, (once.of_perm moved).findings]
      exact moved.flatMap fun part _ => .of_eq (Check.definition_congr agree part)
    have told := found.map fun (position, violation) => (position, violation.message)
    rwa [List.map_map, List.map_map] at told

/-! ## An extension in front of its type -/

/-- An extension and then the type that it extends, which lacks a field of its interface. -/
def extendedFirst : Document :=
  let field (name type : String) (column : Nat) : Field :=
    ⟨name, none, [], .named type, [], ⟨1, .ofNat column⟩⟩
  ⟨"a", "a.gql",
    [.extend ⟨"A", none, [], .object [] [field "y" "Missing" 17], ⟨1, 1⟩⟩,
      .type ⟨"A", none, [], .object ["I"] [field "x" "Int" 53], ⟨1, 30⟩⟩]⟩

def interfaceApart : Document :=
  let field (name : String) (column : Nat) : Field :=
    ⟨name, none, [], .named "Int", [], ⟨1, .ofNat column⟩⟩
  ⟨"i", "i.gql",
    [.type ⟨"I", none, [], .interface [] [field "x" 15, field "z" 22], ⟨1, 1⟩⟩]⟩

/-- The definitions of both documents in one, the interface first. -/
def joinedDocument : Document :=
  ⟨"all", "all.gql", interfaceApart.definitions ++ extendedFirst.definitions⟩

/-- Joined in another order, with an empty document beside them, the definitions still lack the
field, and all that is told of them is the same. -/
theorem checkDocuments_of_perm_joined :
    (⟨1, 30⟩, "'A' does not declare field 'z' required by interface 'I'") ∈
        (checkDocuments [extendedFirst, interfaceApart]).map
          (fun d => (d.position, d.violation.message)) ∧
      ((checkDocuments [extendedFirst, interfaceApart]).map
        fun d => (d.position, d.violation.message)).Perm
      ((checkDocuments [⟨"none", "none.gql", []⟩, joinedDocument]).map
        fun d => (d.position, d.violation.message)) := by
  have moved : (definitions [extendedFirst, interfaceApart]).Perm
      (definitions [⟨"none", "none.gql", []⟩, joinedDocument]) :=
    (List.perm_append_comm : (extendedFirst.definitions ++ interfaceApart.definitions).Perm _)
  have once : DefinedOnce [extendedFirst, interfaceApart] :=
    ⟨by decide, by decide, by decide, by decide, by decide⟩
  have lacks : (⟨1, 30⟩, .fieldMissing "A" "z" "I") ∈
      (checkDocuments [extendedFirst, interfaceApart]).map fun d => (d.position, d.violation) := by
    rw [once.findings, List.mem_flatMap]
    refine ⟨_, List.mem_cons_of_mem _ (List.mem_cons_self ..), ?_⟩
    have missing : "z" ∈ Check.missingFields
        (declarations [extendedFirst, interfaceApart]) "A" "I" := by
      rw [Check.missingFields, List.mem_filter, List.mem_mergeSort, List.mem_eraseDups]
      decide
    exact List.mem_append_right _ (List.mem_append_right _
      (List.mem_append_left _ (List.mem_map.mpr ⟨"z", missing, rfl⟩)))
  obtain ⟨d, reported, same⟩ := List.mem_map.mp lacks
  refine ⟨List.mem_map.mpr ⟨d, reported, ?_⟩, (checkDocuments_of_perm moved).2 once⟩
  obtain ⟨place, broken⟩ := Prod.mk.inj same
  rw [place, broken]
  rfl

end SchemaCompiler
