import Mathlib.Data.List.Nodup
import SchemaCompiler.Page.Html
import SchemaCompiler.Proofs.Page.Views

/-!
The page as the stable grouping of the definitions.

A grouping puts every definition of a document under its section, once and in the order of the
document, and leaves out the sections without definitions. A document has exactly one. Contents
and body are written from it, and an entry says nothing about places in the source, so a page
depends on each section's definitions alone.
-/

namespace SchemaCompiler

open Page

/-! ## Entries without positions -/

namespace Page

theorem inputItems_unplaced (indent : String) (inputs : List InputValue) :
    inputItems indent (inputs.map InputValue.unplaced) = inputItems indent inputs := by
  unfold inputItems
  rw [List.map_map]
  rfl

theorem directiveList_unplaced (uses : List DirectiveUse) :
    directiveList (uses.map DirectiveUse.unplaced) = directiveList uses := by
  unfold directiveList
  rw [List.map_map]
  rfl

theorem directivesLine_unplaced (uses : List DirectiveUse) :
    directivesLine (uses.map DirectiveUse.unplaced) = directivesLine uses := by
  rw [directivesLine, directivesLine, List.isEmpty_map, directiveList_unplaced]

theorem itemDirectives_unplaced (uses : List DirectiveUse) :
    itemDirectives (uses.map DirectiveUse.unplaced) = itemDirectives uses := by
  rw [itemDirectives, itemDirectives, List.isEmpty_map, directiveList_unplaced]

theorem fieldItem_unplaced (field : Field) : fieldItem field.unplaced = fieldItem field := by
  simp only [fieldItem, Field.unplaced, List.isEmpty_map, inputItems_unplaced,
    itemDirectives_unplaced]

theorem enumItem_unplaced (value : EnumValue) : enumItem value.unplaced = enumItem value := by
  simp only [enumItem, EnumValue.unplaced, itemDirectives_unplaced]

theorem kindBody_unplaced (kind : TypeKind) : kindBody kind.unplaced = kindBody kind := by
  have fieldItems (fields : List Field) :
      (fields.map Field.unplaced).map fieldItem = fields.map fieldItem := by
    rw [List.map_map]
    exact List.map_congr_left fun field _ => fieldItem_unplaced field
  cases kind with
  | scalar => rfl
  | object interfaces fields | interface interfaces fields =>
    rw [TypeKind.unplaced, kindBody, kindBody, fieldItems]
  | union members => rfl
  | enum values =>
    rw [TypeKind.unplaced, kindBody, kindBody, List.map_map]
    exact congrArg String.join (List.map_congr_left fun value _ => enumItem_unplaced value)
  | inputObject fields => exact inputItems_unplaced "" fields

theorem typeEntry_unplaced (type : TypeDef) : typeEntry type.unplaced = typeEntry type := by
  simp only [typeEntry, TypeDef.unplaced, directivesLine_unplaced, kindBody_unplaced]

/-- What a page says about a definition does not depend on where the definition stands. -/
theorem entry_unplaced (definition : Definition) :
    entry definition.unplaced = entry definition := by
  cases definition with
  | schema root =>
    have items : (root.operations.map OperationType.unplaced).map operationItem =
        root.operations.map operationItem := by
      rw [List.map_map]
      rfl
    simp only [entry, Definition.unplaced, schemaEntry, SchemaDef.unplaced,
      directivesLine_unplaced, items]
  | type declared => exact typeEntry_unplaced declared
  | extend added => exact typeEntry_unplaced added
  | directive declared =>
    simp only [entry, Definition.unplaced, directiveEntry, DirectiveDef.unplaced,
      inputItems_unplaced, List.isEmpty_map]

/-! ## Groupings -/

/-- Sections with definitions of the document, as a page shows them. -/
structure Grouping (doc : Document) (parts : List (Section × List Definition)) : Prop where
  /-- The sections have the order of the page. -/
  sections : (parts.map Prod.fst).Sublist Section.all
  inhabited : ∀ part ∈ parts, part.2 ≠ []
  /-- The definitions of a section have the order of the document. -/
  order : ∀ part ∈ parts, part.2.Sublist doc.definitions
  place : ∀ part ∈ parts, ∀ definition ∈ part.2, Section.ofDefinition definition = part.1
  /-- Every definition stands in exactly one place. -/
  once : (parts.flatMap Prod.snd).Perm doc.definitions

/-- The sections that have definitions, each with its definitions. -/
def groups (doc : Document) : List (Section × List Definition) :=
  (Section.all.map fun part => (part, definitionsIn doc part)).filter fun part => !part.2.isEmpty

theorem mem_groups {doc : Document} {part : Section × List Definition} :
    part ∈ groups doc ↔ part.2 = definitionsIn doc part.1 ∧ part.2 ≠ [] := by
  rw [groups, List.mem_filter, List.mem_map]
  constructor
  · rintro ⟨⟨here, -, rfl⟩, some⟩
    exact ⟨rfl, by simpa using some⟩
  · rintro ⟨own, some⟩
    exact ⟨⟨part.1, mem_all part.1, Prod.ext rfl own.symm⟩, by simpa using some⟩

theorem nodup_all : Section.all.Nodup := by decide

/-- A part of a list without repetitions is known by its members. -/
theorem eq_of_sublist {α : Type} [DecidableEq α] {whole first second : List α}
    (distinct : whole.Nodup) (left : first.Sublist whole) (right : second.Sublist whole)
    (same : ∀ a, a ∈ first ↔ a ∈ second) : first = second := by
  have filtered {items : List α} (kept : items.Sublist whole) :
      items = whole.filter (· ∈ items) := by
    have inside : items.Sublist (whole.filter (· ∈ items)) := by
      have own : items.filter (· ∈ items) = items := List.filter_eq_self.mpr (by simp)
      have inside := kept.filter (· ∈ items)
      rwa [own] at inside
    have members : items.Perm (whole.filter (· ∈ items)) :=
      (List.perm_ext_iff_of_nodup (kept.nodup distinct) (distinct.filter _)).mpr fun a => by
        simpa using fun here => kept.subset here
    exact inside.eq_of_length members.length_eq
  rw [filtered left, filtered right]
  simp only [same]

/-- One more definition stands in one more place, in front of the definitions of its section. -/
theorem flatMap_filter_cons (definition : Definition) (definitions : List Definition) :
    (Section.all.flatMap fun part =>
      (definition :: definitions).filter (Section.ofDefinition · = part)).Perm
      (definition :: Section.all.flatMap fun part =>
        definitions.filter (Section.ofDefinition · = part)) := by
  obtain ⟨front, back, split⟩ := List.append_of_mem (mem_all (Section.ofDefinition definition))
  have distinct := nodup_all
  rw [split, List.nodup_append, List.nodup_cons] at distinct
  obtain ⟨-, ⟨behind, -⟩, before⟩ := distinct
  have elsewhere {parts : List Section} (away : Section.ofDefinition definition ∉ parts) :
      (parts.flatMap fun part =>
        (definition :: definitions).filter (Section.ofDefinition · = part)) =
        parts.flatMap fun part => definitions.filter (Section.ofDefinition · = part) := by
    refine List.flatMap_congr fun part member => List.filter_cons_of_neg ?_
    rw [decide_eq_true_eq]
    rintro rfl
    exact away member
  have ahead : Section.ofDefinition definition ∉ front := fun member =>
    before _ member _ List.mem_cons_self rfl
  rw [split, List.flatMap_append, List.flatMap_append, List.flatMap_cons, List.flatMap_cons,
    elsewhere ahead, elsewhere behind, List.filter_cons_of_pos (by simp)]
  exact List.perm_middle

theorem flatMap_definitionsIn (doc : Document) :
    (Section.all.flatMap (definitionsIn doc)).Perm doc.definitions := by
  unfold definitionsIn
  induction doc.definitions with
  | nil => rfl
  | cons definition definitions ih =>
    exact (flatMap_filter_cons definition definitions).trans (ih.cons definition)

theorem flatMap_groups (doc : Document) :
    (groups doc).flatMap Prod.snd = Section.all.flatMap (definitionsIn doc) := by
  unfold groups
  induction Section.all with
  | nil => rfl
  | cons part parts ih =>
    rw [List.map_cons, List.filter_cons, List.flatMap_cons, ← ih]
    cases none : definitionsIn doc part with
    | nil => rfl
    | cons definition definitions => rfl

theorem groups_grouping (doc : Document) : Grouping doc (groups doc) := by
  have sections : ((Section.all.map fun part => (part, definitionsIn doc part)).map Prod.fst) =
      Section.all := by
    rw [List.map_map]
    exact List.map_id _
  refine ⟨?_, fun part member => (mem_groups.mp member).2, ?_, ?_, ?_⟩
  · have kept := (List.filter_sublist (p := fun part : Section × List Definition =>
      !part.2.isEmpty) (l := Section.all.map fun part => (part, definitionsIn doc part))).map
        Prod.fst
    rwa [sections] at kept
  · intro part member
    rw [(mem_groups.mp member).1]
    exact List.filter_sublist
  · intro part member definition inside
    rw [(mem_groups.mp member).1] at inside
    simpa using (List.mem_filter.mp inside).2
  · rw [flatMap_groups]
    exact flatMap_definitionsIn doc

section

variable {doc : Document} {parts : List (Section × List Definition)} (grouped : Grouping doc parts)
include grouped

/-- Only one part of a grouping has definitions of its section. -/
theorem Grouping.filter_flatMap {front back : List (Section × List Definition)}
    {part : Section × List Definition} (split : parts = front ++ part :: back) :
    (parts.flatMap Prod.snd).filter (Section.ofDefinition · = part.1) = part.2 := by
  have distinct : (parts.map Prod.fst).Nodup := grouped.sections.nodup nodup_all
  rw [split, List.map_append, List.map_cons, List.nodup_append, List.nodup_cons] at distinct
  obtain ⟨-, ⟨behind, -⟩, before⟩ := distinct
  have elsewhere (others : List (Section × List Definition))
      (among : ∀ other ∈ others, other ∈ parts) (away : part.1 ∉ others.map Prod.fst) :
      (others.flatMap Prod.snd).filter (Section.ofDefinition · = part.1) = [] := by
    refine List.filter_eq_nil_iff.mpr fun definition member => ?_
    obtain ⟨other, here, inside⟩ := List.mem_flatMap.mp member
    rw [decide_eq_true_eq, grouped.place other (among other here) definition inside]
    exact fun same => away (same ▸ List.mem_map_of_mem here)
  have own : part.2.filter (Section.ofDefinition · = part.1) = part.2 := by
    refine List.filter_eq_self.mpr fun definition inside => ?_
    rw [decide_eq_true_eq]
    exact grouped.place part (by simp [split]) definition inside
  have ahead : part.1 ∉ front.map Prod.fst := fun member =>
    before _ member _ List.mem_cons_self rfl
  have first := elsewhere front (by simp +contextual [split]) ahead
  have last := elsewhere back (by simp +contextual [split]) behind
  rw [split, List.flatMap_append, List.flatMap_cons, List.filter_append, List.filter_append, first,
    last, own, List.nil_append, List.append_nil]

theorem Grouping.part_eq {part : Section × List Definition} (member : part ∈ parts) :
    part.2 = definitionsIn doc part.1 := by
  obtain ⟨front, back, split⟩ := List.append_of_mem member
  have whole := grouped.filter_flatMap split
  have kept : part.2.Sublist (definitionsIn doc part.1) := by
    have inside := (grouped.order part member).filter (Section.ofDefinition · = part.1)
    rwa [List.filter_eq_self.mpr fun definition inside => by
      rw [decide_eq_true_eq]
      exact grouped.place part member definition inside] at inside
  refine kept.eq_of_length ?_
  rw [← whole]
  exact (grouped.once.filter _).length_eq

theorem Grouping.mem_iff {part : Section × List Definition} :
    part ∈ parts ↔ part ∈ groups doc := by
  rw [mem_groups]
  constructor
  · exact fun member => ⟨grouped.part_eq member, grouped.inhabited part member⟩
  · rintro ⟨own, some⟩
    obtain ⟨definition, definitions, shape⟩ := List.exists_cons_of_ne_nil some
    have inside : definition ∈ definitionsIn doc part.1 := by rw [← own, shape]; simp
    obtain ⟨listed, here⟩ := List.mem_filter.mp inside
    obtain ⟨other, member, held⟩ := List.mem_flatMap.mp (grouped.once.mem_iff.mpr listed)
    have same : other.1 = part.1 :=
      (grouped.place other member definition held).symm.trans (of_decide_eq_true here)
    have whole : other = part := Prod.ext same (by rw [grouped.part_eq member, same, own])
    exact whole ▸ member

theorem Grouping.sections_eq : parts.map Prod.fst = (groups doc).map Prod.fst := by
  refine eq_of_sublist nodup_all grouped.sections (groups_grouping doc).sections fun part => ?_
  simp only [List.mem_map, grouped.mem_iff]

/-- A document has one grouping. -/
theorem Grouping.eq_groups : parts = groups doc := by
  have filled {others : List (Section × List Definition)} (h : Grouping doc others) :
      others = (others.map Prod.fst).map fun part => (part, definitionsIn doc part) := by
    rw [List.map_map]
    refine (List.map_id others).symm.trans (List.map_congr_left fun part member => ?_)
    exact Prod.ext rfl (h.part_eq member)
  rw [filled grouped, grouped.sections_eq, ← filled (groups_grouping doc)]

end

/-! ## The text of a grouping -/

/-- The table of contents. -/
def contents (parts : List (Section × List Definition)) : String :=
  String.join (parts.map fun part => contentsOf (part.1, part.2.map entry))

/-- The page below the table of contents. -/
def body (parts : List (Section × List Definition)) : String :=
  String.join (parts.map fun part => sectionText (part.1, part.2.map entry))

/-- The first heading of a page. -/
def shownTitle (doc : Document) (options : PageOptions) : String := options.title.getD doc.name

theorem outline_eq_groups (doc : Document) :
    outline doc = (groups doc).map fun part => (part.1, part.2.map entry) := by
  unfold outline groups
  induction Section.all with
  | nil => rfl
  | cons part parts ih =>
    rw [List.map_cons, List.filter_cons, ih, List.map_cons, List.filter_cons]
    cases none : definitionsIn doc part with
    | nil => rfl
    | cons definition definitions => rfl

theorem markdown_eq (doc : Document) (options : PageOptions) :
    markdown doc options =
      "# " ++ shownTitle doc options ++ "\n*This was generated by sdlc.*\n\n" ++
        "## Table of Contents\n" ++ contents (groups doc) ++ "\n" ++ body (groups doc) := by
  unfold markdown contents body
  rw [outline_eq_groups, List.map_map, List.map_map]
  rfl

theorem ofDefinition_eq_extensions (definition : Definition) :
    Section.ofDefinition definition = .extensions ↔
      (∃ type, definition = .extend type) ∨
        ∃ schema, definition = .schema schema ∧ schema.extension = true := by
  cases definition with
  | schema root => cases more : root.extension <;> simp [Section.ofDefinition, more]
  | type declared =>
    cases kind : declared.kind <;> simp [Section.ofDefinition, Section.ofKind, kind]
  | extend added => simp [Section.ofDefinition]
  | directive declared => simp [Section.ofDefinition]

theorem entries_eq_of_unplaced {definitions others : List Definition}
    (alike : definitions.map Definition.unplaced = others.map Definition.unplaced) :
    definitions.map entry = others.map entry := by
  have shown (definitions : List Definition) :
      definitions.map entry = (definitions.map Definition.unplaced).map entry := by
    rw [List.map_map]
    exact List.map_congr_left fun definition _ => (entry_unplaced definition).symm
  rw [shown definitions, alike, ← shown]

/-- The outline of a page depends on each section's definitions alone. -/
theorem outline_congr {doc other : Document}
    (alike : ∀ part, (definitionsIn doc part).map Definition.unplaced =
      (definitionsIn other part).map Definition.unplaced) : outline doc = outline other := by
  unfold outline
  refine congrArg _ (List.map_congr_left fun part _ => ?_)
  rw [entries_eq_of_unplaced (alike part)]

end Page

end SchemaCompiler
