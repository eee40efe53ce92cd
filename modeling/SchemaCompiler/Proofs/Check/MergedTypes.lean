import SchemaCompiler.Proofs.Check.RulesDecided

/-!
A type together with its extensions.

The check looks for repeated names inside one definition or one extension at a time. So the names
of a whole type differ exactly when no two of its parts share one, and nothing in the check asks
for that.
-/

namespace SchemaCompiler

variable {docs : List Document}

namespace Schema

/-- The definitions and extensions of the type of a name. -/
def partsOf (docs : List Document) (name : String) : List TypeDef :=
  (parts docs).filter (·.name == name)

/-- The fields, values or members of a type, over its definition and all its extensions. -/
def mergedItems (docs : List Document) (name : String) : List String :=
  (partsOf docs name).flatMap (·.kind.itemNames)

/-- The root operations that the schema definitions and schema extensions bind. -/
def rootOperations (docs : List Document) : List Operation :=
  (roots docs).flatMap fun root => root.operations.map (·.operation)

/-- No name occurs twice in a whole type, and no root operation is bound twice. -/
def MergedDistinct (docs : List Document) : Prop :=
  (∀ type ∈ types docs, (mergedItems docs type.name).Nodup) ∧ (rootOperations docs).Nodup

end Schema

open Schema

/-- Two parts of types list no common name. -/
def TypeDef.Apart (a b : TypeDef) : Prop := ∀ item ∈ a.kind.itemNames, item ∉ b.kind.itemNames

/-- Two schema definitions or extensions bind no common operation. -/
def SchemaDef.Apart (a b : SchemaDef) : Prop :=
  ∀ operation ∈ a.operations.map (·.operation), operation ∉ b.operations.map (·.operation)

/-! ## Distinct names and disjoint parts -/

/-- Lists laid end to end have no repetition exactly when each has none and no two share an item. -/
theorem nodup_flatMap_iff_of_each {α β : Type} (items : α → List β) (owners : List α)
    (each : ∀ owner ∈ owners, (items owner).Nodup) :
    (owners.flatMap items).Nodup ↔
      owners.Pairwise fun a b => ∀ item ∈ items a, item ∉ items b := by
  have apart (a b : α) : (∀ x ∈ items a, ∀ y ∈ items b, x ≠ y) ↔ ∀ x ∈ items a, x ∉ items b := by
    refine forall_congr' fun x => imp_congr_right fun _ => ?_
    constructor
    · intro h member
      exact h x member rfl
    · rintro h y member rfl
      exact h member
  rw [List.nodup_iff_pairwise_ne, List.pairwise_flatMap]
  simp only [apart]
  exact and_iff_right each

theorem mergedItems_nodup_iff (rules : SchemaRules docs) (name : String) :
    (mergedItems docs name).Nodup ↔ (partsOf docs name).Pairwise TypeDef.Apart := by
  apply nodup_flatMap_iff_of_each
  intro part member
  exact rules.items_distinct part (List.mem_filter.mp member).1

theorem rootOperations_nodup_iff (rules : SchemaRules docs) :
    (rootOperations docs).Nodup ↔ (roots docs).Pairwise SchemaDef.Apart :=
  nodup_flatMap_iff_of_each _ _ rules.operations_distinct

/-- In an accepted set nothing occurs twice in a whole type or among the root operations exactly
when no two parts of one type and no two schema parts have anything in common. -/
theorem merged_distinct_iff_parts_apart (accepted : checkDocuments docs = []) :
    MergedDistinct docs ↔
      (∀ type ∈ types docs, (partsOf docs type.name).Pairwise TypeDef.Apart) ∧
        (roots docs).Pairwise SchemaDef.Apart := by
  have rules := schemaRules_of_accepted accepted
  simp only [MergedDistinct, mergedItems_nodup_iff rules, rootOperations_nodup_iff rules]

/-- A type and an extension of it that declares its field again. -/
def fieldSaidTwice : Document :=
  let field : Field := ⟨"x", none, [], .named "Int", [], ⟨1, 10⟩⟩
  let part (place : Position) : TypeDef := ⟨"A", none, [], .object [] [field], place⟩
  ⟨"a", "a.gql", [.type (part ⟨1, 1⟩), .extend (part ⟨1, 26⟩)]⟩

/-- The field of an accepted type can be declared again by its extension. -/
theorem field_said_twice_accepted :
    checkDocuments [fieldSaidTwice] = [] ∧ ¬ MergedDistinct [fieldSaidTwice] := by
  have accepted : checkDocuments [fieldSaidTwice] = [] := by decide
  refine ⟨accepted, fun distinct => ?_⟩
  have apart := ((merged_distinct_iff_parts_apart accepted).mp distinct).1
  have shared := apart _ (List.mem_cons_self ..)
  exact (List.pairwise_cons.mp shared).1 _ (List.mem_cons_self ..) "x" (by decide) (by decide)

end SchemaCompiler
