import SchemaCompiler.Check
import SchemaCompiler.Proofs.Check.SchemaRules

/-!
The first pass of the check: what the definitions of all documents declare.

A definition whose name is free is added as it stands, so a pass without findings has declared
exactly what the documents define, in order; and it has no findings exactly when the names it meets
are free and differ from one another.
-/

namespace SchemaCompiler

namespace Check

namespace Declarations

/-- Adds a definition whatever its name. -/
def declare (d : Declarations) : Definition → Declarations
  | .type type => { d with types := d.types ++ [type] }
  | .extend type => { d with extensions := d.extensions ++ [type] }
  | .directive directive => { d with directives := d.directives ++ [directive.name] }
  | .schema schema => { d with schema := d.schema || !schema.extension }

/-- The name of the definition is free. -/
def Admits (d : Declarations) : Definition → Prop
  | .type type => type.name ∉ builtinScalars ∧ type.name ∉ d.types.map (·.name)
  | .extend _ => True
  | .directive directive =>
    directive.name ∉ builtinDirectives ∧ directive.name ∉ d.directives
  | .schema schema => schema.extension = false → d.schema = false

theorem isSome_type?_iff (d : Declarations) (name : String) :
    (d.type? name).isSome ↔ name ∈ d.types.map (·.name) := by
  rw [type?, List.find?_isSome, List.mem_map]
  simp only [beq_iff_eq]

theorem knowsDirective_iff (d : Declarations) (name : String) :
    d.knowsDirective name ↔ name ∈ builtinDirectives ∨ name ∈ d.directives := by
  rw [knowsDirective, Bool.or_eq_true, isBuiltinDirective_iff, List.contains_iff_mem]

/-- The test that a type's name is taken fails when it is free. -/
theorem type_taken_iff (d : Declarations) (type : TypeDef) :
    (isBuiltinScalar type.name || (d.type? type.name).isSome) = true ↔ ¬ d.Admits (.type type) := by
  rw [Bool.or_eq_true, isSome_type?_iff, isBuiltinScalar_iff, Admits]
  exact (Decidable.not_and_iff_not_or_not.trans
    (or_congr Decidable.not_not Decidable.not_not)).symm

theorem directive_taken_iff (d : Declarations) (directive : DirectiveDef) :
    d.knowsDirective directive.name = true ↔ ¬ d.Admits (.directive directive) := by
  rw [knowsDirective_iff, Admits]
  exact (Decidable.not_and_iff_not_or_not.trans
    (or_congr Decidable.not_not Decidable.not_not)).symm

theorem add_of_admits {d : Declarations} {definition : Definition} (free : d.Admits definition) :
    d.add definition = ([], d.declare definition) := by
  cases definition with
  | type type =>
    have h : ¬ _ := fun taken => (d.type_taken_iff type).mp taken free
    rw [add, if_neg h, declare]
  | extend type => rfl
  | directive directive =>
    have h : ¬ _ := fun taken => (d.directive_taken_iff directive).mp taken free
    rw [add, if_neg h, declare]
  | schema schema =>
    simp only [Admits] at free
    by_cases added : schema.extension = true
    · simp [add, declare, added]
    · simp [add, declare, added, free]

theorem add_fst_ne_nil {d : Declarations} {definition : Definition}
    (taken : ¬ d.Admits definition) : (d.add definition).1 ≠ [] := by
  cases definition with
  | type type =>
    rw [add, if_pos ((d.type_taken_iff type).mpr taken)]
    exact List.cons_ne_nil _ _
  | extend type => exact absurd trivial taken
  | directive directive =>
    rw [add, if_pos ((d.directive_taken_iff directive).mpr taken)]
    exact List.cons_ne_nil _ _
  | schema schema =>
    simp only [Admits, Classical.not_imp, Bool.not_eq_false] at taken
    simp [add, taken]

/-- Every definition's name is free when its turn comes. -/
def AdmitsAll : Declarations → List Definition → Prop
  | _, [] => True
  | d, definition :: rest => d.Admits definition ∧ (d.declare definition).AdmitsAll rest

theorem addAll_of_admitsAll {d : Declarations} {owned : List (String × Definition)}
    (free : d.AdmitsAll (owned.map (·.2))) :
    d.addAll owned = ([], (owned.map (·.2)).foldl declare d) := by
  induction owned generalizing d with
  | nil => rfl
  | cons first rest ih =>
    obtain ⟨doc, definition⟩ := first
    rw [List.map_cons, AdmitsAll] at free
    simp only [addAll, add_of_admits free.1, ih free.2, List.map_nil, List.nil_append,
      List.map_cons, List.foldl_cons]

/-- The pass has no findings exactly when every name is free. -/
theorem addAll_fst_eq_nil_iff (d : Declarations) (owned : List (String × Definition)) :
    (d.addAll owned).1 = [] ↔ d.AdmitsAll (owned.map (·.2)) := by
  refine ⟨fun clean => ?_, fun free => by rw [addAll_of_admitsAll free]⟩
  induction owned generalizing d with
  | nil => trivial
  | cons first rest ih =>
    obtain ⟨doc, definition⟩ := first
    rw [addAll, List.append_eq_nil_iff, List.map_eq_nil_iff] at clean
    have free : d.Admits definition :=
      Classical.byContradiction fun taken => add_fst_ne_nil taken clean.1
    rw [add_of_admits free] at clean
    exact ⟨free, ih _ clean.2⟩

/-! ## What is declared in the end -/

theorem foldl_declare_types (d : Declarations) (definitions : List Definition) :
    (definitions.foldl declare d).types = d.types ++ definitions.filterMap Definition.type? := by
  induction definitions generalizing d with
  | nil => simp
  | cons definition rest ih =>
    rw [List.foldl_cons, ih]
    cases definition <;> simp [declare, List.filterMap_cons, Definition.type?]

theorem foldl_declare_extensions (d : Declarations) (definitions : List Definition) :
    (definitions.foldl declare d).extensions =
      d.extensions ++ definitions.filterMap Definition.extension? := by
  induction definitions generalizing d with
  | nil => simp
  | cons definition rest ih =>
    rw [List.foldl_cons, ih]
    cases definition <;> simp [declare, List.filterMap_cons, Definition.extension?]

theorem foldl_declare_directives (d : Declarations) (definitions : List Definition) :
    (definitions.foldl declare d).directives =
      d.directives ++ (definitions.filterMap Definition.directive?).map (·.name) := by
  induction definitions generalizing d with
  | nil => simp
  | cons definition rest ih =>
    rw [List.foldl_cons, ih]
    cases definition <;> simp [declare, List.filterMap_cons, Definition.directive?]

/-! ## Free names -/

/-- Names that differ from one another and from those reserved or taken. -/
def FreshNames (reserved taken names : List String) : Prop :=
  names.Nodup ∧ ∀ name ∈ names, name ∉ reserved ∧ name ∉ taken

theorem freshNames_cons_iff (reserved taken : List String) (name : String) (names : List String) :
    FreshNames reserved taken (name :: names) ↔
      (name ∉ reserved ∧ name ∉ taken) ∧ FreshNames reserved (taken ++ [name]) names := by
  simp only [FreshNames, List.nodup_cons, List.forall_mem_cons, List.mem_append,
    List.mem_singleton, not_or]
  constructor
  · rintro ⟨⟨new, distinct⟩, free, rest⟩
    refine ⟨free, distinct, fun other h => ⟨(rest other h).1, (rest other h).2, ?_⟩⟩
    rintro rfl
    exact new h
  · rintro ⟨free, distinct, rest⟩
    refine ⟨⟨fun h => (rest name h).2.2 rfl, distinct⟩, free, fun other h => ?_⟩
    exact ⟨(rest other h).1, (rest other h).2.1⟩

/-- The names met in a list of definitions are all free exactly when the types and the directives
are fresh and no second schema is defined. -/
theorem admitsAll_iff (d : Declarations) (definitions : List Definition) :
    d.AdmitsAll definitions ↔
      FreshNames builtinScalars (d.types.map (·.name))
        ((definitions.filterMap Definition.type?).map (·.name)) ∧
      FreshNames builtinDirectives d.directives
        ((definitions.filterMap Definition.directive?).map (·.name)) ∧
      ((definitions.filterMap Definition.root?).filter (!·.extension)).length ≤
        if d.schema then 0 else 1 := by
  induction definitions generalizing d with
  | nil => simp [AdmitsAll, FreshNames]
  | cons definition rest ih =>
    rw [AdmitsAll, ih]
    cases definition with
    | type type =>
      simp only [Admits, declare, Definition.type?, Definition.directive?, Definition.root?,
        List.filterMap_cons, List.map_append, List.map_cons, List.map_nil, freshNames_cons_iff,
        and_assoc]
      exact Iff.rfl
    | extend type =>
      simp only [Admits, declare, Definition.type?, Definition.directive?, Definition.root?,
        List.filterMap_cons, true_and]
      exact Iff.rfl
    | directive directive =>
      simp only [Admits, declare, Definition.type?, Definition.directive?, Definition.root?,
        List.filterMap_cons, List.map_cons, freshNames_cons_iff]
      constructor
      · rintro ⟨free, types, directives, schema⟩
        exact ⟨types, ⟨free, directives⟩, schema⟩
      · rintro ⟨types, ⟨free, directives⟩, schema⟩
        exact ⟨free, types, directives, schema⟩
    | schema schema =>
      simp only [Admits, declare, Definition.type?, Definition.directive?, Definition.root?,
        List.filterMap_cons, List.filter_cons]
      by_cases added : schema.extension = true
      · simp [added]
      · by_cases met : d.schema = true <;> simp [added, met]

end Declarations

end Check

end SchemaCompiler
