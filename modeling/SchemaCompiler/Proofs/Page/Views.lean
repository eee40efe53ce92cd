import SchemaCompiler.Proofs.Page.Telling

/-!
What a Markdown page tells of a document.

Two documents that agree but for the constants and directives that their pages show as code have
different pages, unless these are the same too.
-/

namespace SchemaCompiler

/-- What is put in the places of the code on a page. -/
structure CodeView where
  default : Value → Value
  directives : List DirectiveUse → List DirectiveUse

namespace CodeView

/-- Everything but the positions of directives. -/
def plain : CodeView where
  default := id
  directives := List.map DirectiveUse.unplaced

/-- Only where there is code. -/
def masked : CodeView where
  default _ := .null
  directives uses := if uses.isEmpty then [] else [⟨"", [], .start⟩]

end CodeView

/-! ## Documents in a view -/

section

variable (view : CodeView)

/-- Directives of arguments and input fields are on no page. -/
def InputValue.viewed (input : InputValue) : InputValue :=
  { input with default := input.default.map view.default, directives := [], position := .start }

def Field.viewed (field : Field) : Field :=
  { field with
    args := field.args.map (·.viewed view)
    directives := view.directives field.directives
    position := .start }

def EnumValue.viewed (value : EnumValue) : EnumValue :=
  { value with directives := view.directives value.directives, position := .start }

def TypeKind.viewed : TypeKind → TypeKind
  | scalar => scalar
  | object interfaces fields => object interfaces (fields.map (·.viewed view))
  | interface interfaces fields => interface interfaces (fields.map (·.viewed view))
  | union members => union members
  | enum values => enum (values.map (·.viewed view))
  | inputObject fields => inputObject (fields.map (·.viewed view))

def TypeDef.viewed (type : TypeDef) : TypeDef :=
  { type with
    directives := view.directives type.directives
    kind := type.kind.viewed view
    position := .start }

def SchemaDef.viewed (schema : SchemaDef) : SchemaDef :=
  { schema with
    directives := view.directives schema.directives
    operations := schema.operations.map OperationType.unplaced
    position := .start }

def DirectiveDef.viewed (directive : DirectiveDef) : DirectiveDef :=
  { directive with args := directive.args.map (·.viewed view), position := .start }

def Definition.viewed : Definition → Definition
  | .schema root => .schema (root.viewed view)
  | .type declared => .type (declared.viewed view)
  | .extend added => .extend (added.viewed view)
  | .directive declared => .directive (declared.viewed view)

/-- The document as its page could show it, with other code. -/
def Document.viewed (doc : Document) : Document :=
  { doc with definitions := doc.definitions.map (·.viewed view) }

end

namespace Page

open CodeView

/-! ## Items -/

theorem isEmpty_of_masked {uses others : List DirectiveUse}
    (alike : masked.directives uses = masked.directives others) :
    uses.isEmpty = others.isEmpty := by
  cases uses <;> cases others <;> simp [masked] at alike ⊢

theorem isEmpty_of_map {α β : Type} {f : α → β} {items others : List α}
    (alike : items.map f = others.map f) : items.isEmpty = others.isEmpty := by
  have equal := congrArg List.isEmpty alike
  rwa [List.isEmpty_map, List.isEmpty_map] at equal

theorem tells_shown (front back : String) {uses others : List DirectiveUse}
    (alike : masked.directives uses = masked.directives others)
    (good : ∀ use ∈ uses, use.WellFormed) (good' : ∀ use ∈ others, use.WellFormed) :
    Tells (if uses.isEmpty then "" else front ++ directiveList uses ++ ("`\n" ++ back))
      (if others.isEmpty then "" else front ++ directiveList others ++ ("`\n" ++ back))
      (plain.directives uses = plain.directives others) := by
  refine Tells.unlessEmpty (isEmpty_of_masked alike) ?_
  have told := ((Tells.code (oneLine_directiveList good)
    (oneLine_directiveList good')).behind front).before back
  simp only [String.append_assoc] at told ⊢
  exact told.mono (unplaced_eq_of_directiveList good good')

theorem tells_directivesLine {uses others : List DirectiveUse}
    (alike : masked.directives uses = masked.directives others)
    (good : ∀ use ∈ uses, use.WellFormed) (good' : ∀ use ∈ others, use.WellFormed) :
    Tells (directivesLine uses) (directivesLine others)
      (plain.directives uses = plain.directives others) :=
  tells_shown "*Directives*: `" "\n" alike good good'

theorem tells_itemDirectives {uses others : List DirectiveUse}
    (alike : masked.directives uses = masked.directives others)
    (good : ∀ use ∈ uses, use.WellFormed) (good' : ∀ use ∈ others, use.WellFormed) :
    Tells (itemDirectives uses) (itemDirectives others)
      (plain.directives uses = plain.directives others) :=
  tells_shown "\n\t*Directives*: `" "" alike good good'

theorem tells_inputItem (indent : String) {input other : InputValue}
    (alike : input.viewed masked = other.viewed masked) (good : input.WellFormed)
    (good' : other.WellFormed) :
    Tells (inputItem indent input) (inputItem indent other)
      (input.viewed plain = other.viewed plain) := by
  obtain ⟨name, description, ty, default, directives, place⟩ := input
  obtain ⟨name', description', ty', default', directives', place'⟩ := other
  simp only [InputValue.viewed, InputValue.mk.injEq] at alike ⊢
  obtain ⟨rfl, rfl, rfl, defaults, -⟩ := alike
  unfold inputItem
  refine Tells.behind _ ?_
  cases default with
  | none =>
    cases default' with
    | none => exact (Tells.same "").mono fun _ => by simp
    | some value' => cases defaults
  | some value =>
    cases default' with
    | none => cases defaults
    | some value' =>
      have whole := good.default value rfl
      have whole' := good'.default value' rfl
      have told := (Tells.code (value.oneLine whole) (value'.oneLine whole')).behind
        ("\n" ++ indent ++ "\t*Default Value*: `")
      simp only [← String.append_assoc] at told ⊢
      exact told.mono fun same => by simp [Value.eq_of_text whole whole' same]

theorem tells_inputItems (indent : String) {inputs others : List InputValue}
    (alike : inputs.map (·.viewed masked) = others.map (·.viewed masked))
    (good : ∀ input ∈ inputs, input.WellFormed) (good' : ∀ input ∈ others, input.WellFormed) :
    Tells (inputItems indent inputs) (inputItems indent others)
      (inputs.map (·.viewed plain) = others.map (·.viewed plain)) :=
  Tells.join alike fun input member other member' one =>
    tells_inputItem indent one (good input member) (good' other member')

theorem tells_fieldItem {field other : Field} (alike : field.viewed masked = other.viewed masked)
    (good : field.WellFormed) (good' : other.WellFormed) :
    Tells (fieldItem field) (fieldItem other) (field.viewed plain = other.viewed plain) := by
  obtain ⟨name, description, args, ty, directives, place⟩ := field
  obtain ⟨name', description', args', ty', directives', place'⟩ := other
  simp only [Field.viewed, Field.mk.injEq] at alike ⊢
  obtain ⟨rfl, rfl, inputs, rfl, uses, -⟩ := alike
  have items := Tells.unlessEmpty (isEmpty_of_map inputs)
    ((tells_inputItems "\t" inputs good.args good'.args).behind "\n\t*Args*:\n")
  have shown := tells_itemDirectives uses good.directives good'.directives
  unfold fieldItem
  exact ((items.behind _).append shown).mono fun ⟨same, same'⟩ => by simp [same, same']

theorem tells_enumItem {value other : EnumValue} (alike : value.viewed masked = other.viewed masked)
    (good : value.WellFormed) (good' : other.WellFormed) :
    Tells (enumItem value) (enumItem other) (value.viewed plain = other.viewed plain) := by
  obtain ⟨name, description, directives, place⟩ := value
  obtain ⟨name', description', directives', place'⟩ := other
  simp only [EnumValue.viewed, EnumValue.mk.injEq] at alike ⊢
  obtain ⟨rfl, rfl, uses, -⟩ := alike
  have shown := tells_itemDirectives uses good.directives good'.directives
  unfold enumItem
  exact (shown.behind _).mono fun same => by simp [same]

/-! ## Entries -/

theorem tells_kindBody {kind other : TypeKind} (alike : kind.viewed masked = other.viewed masked)
    (good : kind.WellFormed) (good' : other.WellFormed) :
    Tells (kindBody kind) (kindBody other) (kind.viewed plain = other.viewed plain) := by
  have fieldItems {fields others : List Field}
      (alike : fields.map (·.viewed masked) = others.map (·.viewed masked))
      (good : ∀ field ∈ fields, field.WellFormed) (good' : ∀ field ∈ others, field.WellFormed) :
      Tells (String.join (fields.map fieldItem)) (String.join (others.map fieldItem))
        (fields.map (·.viewed plain) = others.map (·.viewed plain)) :=
    Tells.join alike fun field member other member' one =>
      tells_fieldItem one (good field member) (good' other member')
  cases kind with
  | scalar =>
    cases other with
    | scalar => exact (Tells.same "").mono fun _ => rfl
    | _ => cases alike
  | object interfaces fields =>
    cases other with
    | object interfaces' fields' =>
      obtain ⟨rfl, inside⟩ := TypeKind.object.inj alike
      exact ((fieldItems inside good.2 good'.2).behind _).mono fun same => by
        simp [TypeKind.viewed, same]
    | _ => cases alike
  | interface interfaces fields =>
    cases other with
    | interface interfaces' fields' =>
      obtain ⟨rfl, inside⟩ := TypeKind.interface.inj alike
      exact ((fieldItems inside good.2 good'.2).behind _).mono fun same => by
        simp [TypeKind.viewed, same]
    | _ => cases alike
  | union members =>
    cases other with
    | union members' =>
      obtain rfl := TypeKind.union.inj alike
      exact (Tells.same _).mono fun _ => rfl
    | _ => cases alike
  | enum values =>
    cases other with
    | enum values' =>
      have items : Tells (String.join (values.map enumItem)) (String.join (values'.map enumItem))
          (values.map (·.viewed plain) = values'.map (·.viewed plain)) :=
        Tells.join (TypeKind.enum.inj alike) fun value member other member' one =>
          tells_enumItem one (good value member) (good' other member')
      exact items.mono fun same => by simp [TypeKind.viewed, same]
    | _ => cases alike
  | inputObject fields =>
    cases other with
    | inputObject fields' =>
      have items := tells_inputItems "" (TypeKind.inputObject.inj alike) good good'
      exact items.mono fun same => by simp [TypeKind.viewed, same]
    | _ => cases alike

/-- The entries have one name, and with an empty line behind them they tell. -/
structure EntriesTell (first second : Entry) (p : Prop) : Prop where
  name : first.name = second.name
  body : Tells (first.body ++ "\n") (second.body ++ "\n") p

theorem tells_typeEntry {type other : TypeDef} (alike : type.viewed masked = other.viewed masked)
    (good : type.WellFormed) (good' : other.WellFormed) :
    EntriesTell (typeEntry type) (typeEntry other) (type.viewed plain = other.viewed plain) := by
  obtain ⟨name, description, directives, kind, place⟩ := type
  obtain ⟨name', description', directives', kind', place'⟩ := other
  simp only [TypeDef.viewed, TypeDef.mk.injEq] at alike ⊢
  obtain ⟨rfl, rfl, uses, kinds, -⟩ := alike
  have shown := tells_directivesLine uses good.directives good'.directives
  have parts := tells_kindBody kinds good.kind good'.kind
  refine ⟨rfl, Tells.dropEmptyEnd ?_⟩
  exact ((shown.behind (paragraph description)).append parts).mono fun ⟨same, same'⟩ => by
    simp [same, same']

theorem tells_schemaEntry {schema other : SchemaDef}
    (alike : schema.viewed masked = other.viewed masked) (good : schema.WellFormed)
    (good' : other.WellFormed) :
    EntriesTell (schemaEntry schema) (schemaEntry other)
      (schema.viewed plain = other.viewed plain) := by
  obtain ⟨description, extension, directives, operations, place⟩ := schema
  obtain ⟨description', extension', directives', operations', place'⟩ := other
  simp only [SchemaDef.viewed, SchemaDef.mk.injEq] at alike ⊢
  obtain ⟨rfl, rfl, uses, roots, -⟩ := alike
  have shown := tells_directivesLine uses good.directives good'.directives
  have items : operations.map operationItem = operations'.map operationItem := by
    have each : operationItem ∘ OperationType.unplaced = operationItem := rfl
    rw [← each, ← List.map_map, roots, List.map_map]
  refine ⟨rfl, ?_⟩
  unfold schemaEntry
  rw [items]
  exact (((shown.behind (paragraph description)).before _).before "\n").mono fun same => by
    simp [same, roots]

theorem tells_directiveEntry {directive other : DirectiveDef}
    (alike : directive.viewed masked = other.viewed masked) (good : directive.WellFormed)
    (good' : other.WellFormed) :
    EntriesTell (directiveEntry directive) (directiveEntry other)
      (directive.viewed plain = other.viewed plain) := by
  obtain ⟨name, description, args, repeatable, locations, place⟩ := directive
  obtain ⟨name', description', args', repeatable', locations', place'⟩ := other
  simp only [DirectiveDef.viewed, DirectiveDef.mk.injEq] at alike ⊢
  obtain ⟨rfl, rfl, inputs, rfl, rfl, -⟩ := alike
  have items := tells_inputItems "" inputs good.args good'.args
  refine ⟨rfl, ?_⟩
  unfold directiveEntry
  rw [isEmpty_of_map inputs]
  exact ((((((items.behind (paragraph description)).before _).before _).before _).before _).before
    _).before "\n" |>.mono fun same => by simp [same]

theorem tells_entry {definition other : Definition}
    (alike : definition.viewed masked = other.viewed masked) (good : definition.WellFormed)
    (good' : other.WellFormed) :
    EntriesTell (entry definition) (entry other)
      (definition.viewed plain = other.viewed plain) := by
  cases definition with
  | schema root =>
    cases other with
    | schema root' =>
      have told := tells_schemaEntry (Definition.schema.inj alike) good good'
      exact ⟨told.name, told.body.mono (congrArg Definition.schema)⟩
    | _ => cases alike
  | type declared =>
    cases other with
    | type declared' =>
      have told := tells_typeEntry (Definition.type.inj alike) good good'
      exact ⟨told.name, told.body.mono (congrArg Definition.type)⟩
    | _ => cases alike
  | extend added =>
    cases other with
    | extend added' =>
      have told := tells_typeEntry (Definition.extend.inj alike) good.1 good'.1
      exact ⟨told.name, told.body.mono (congrArg Definition.extend)⟩
    | _ => cases alike
  | directive declared =>
    cases other with
    | directive declared' =>
      have told := tells_directiveEntry (Definition.directive.inj alike) good good'
      exact ⟨told.name, told.body.mono (congrArg Definition.directive)⟩
    | _ => cases alike

/-! ## Sections -/

/-- What stands in front of every piece may as well stand behind it. -/
theorem join_rotate {α : Type} (f : α → String) (items : List α) :
    String.join (items.map fun item => "\n" ++ f item) ++ "\n" =
      "\n" ++ String.join (items.map fun item => f item ++ "\n") := by
  induction items with
  | nil => rfl
  | cons item items ih =>
    rw [List.map_cons, List.map_cons, String.join_cons, String.join_cons, String.append_assoc, ih]
    simp only [String.append_assoc]

theorem sectionText_eq (part : Section) (definitions : List Definition) :
    sectionText (part, definitions.map entry) = "## " ++ part.heading ++ "\n" ++ ("\n" ++
      String.join (definitions.map fun definition =>
        "### " ++ (entry definition).name ++ "\n" ++ ((entry definition).body ++ "\n"))) := by
  have pieces : String.join ((definitions.map entry).map fun entry =>
      "\n### " ++ entry.name ++ "\n" ++ entry.body) =
        String.join (definitions.map fun definition =>
          "\n" ++ ("### " ++ (entry definition).name ++ "\n" ++ (entry definition).body)) := by
    rw [List.map_map]
    refine congrArg String.join (List.map_congr_left fun definition _ => ?_)
    have front : "\n### " = "\n" ++ "### " := rfl
    simp only [Function.comp_apply, front, String.append_assoc]
  have rotated := join_rotate
    (fun definition => "### " ++ (entry definition).name ++ "\n" ++ (entry definition).body)
    definitions
  rw [sectionText, pieces, String.append_assoc, rotated]
  simp only [String.append_assoc]

theorem tells_section (part : Section) {definitions others : List Definition}
    (alike : definitions.map (·.viewed masked) = others.map (·.viewed masked))
    (good : ∀ definition ∈ definitions, definition.WellFormed)
    (good' : ∀ definition ∈ others, definition.WellFormed) :
    Tells (sectionText (part, definitions.map entry)) (sectionText (part, others.map entry))
      (definitions.map (·.viewed plain) = others.map (·.viewed plain)) := by
  rw [sectionText_eq, sectionText_eq]
  refine Tells.behind _ (Tells.behind _ (Tells.join alike ?_))
  intro definition member other member' one
  have told := tells_entry one (good definition member) (good' other member')
  rw [told.name]
  exact told.body.behind _

/-- A section of the page or of its contents, which is left out if there is nothing in it. -/
def sectionIn (f : Section × List Entry → String) (doc : Document) (part : Section) : String :=
  if (definitionsIn doc part).isEmpty then "" else f (part, (definitionsIn doc part).map entry)

theorem join_outline (f : Section × List Entry → String) (doc : Document) :
    String.join ((outline doc).map f) = String.join (Section.all.map (sectionIn f doc)) := by
  unfold outline
  induction Section.all with
  | nil => rfl
  | cons part parts ih =>
    rw [List.map_cons, List.map_cons, String.join_cons, ← ih, List.filter_cons]
    unfold sectionIn
    cases none : (definitionsIn doc part).isEmpty with
    | true => simp [none]
    | false => simp [none, String.join_cons]

theorem ofDefinition_viewed (view : CodeView) (definition : Definition) :
    Section.ofDefinition (definition.viewed view) = Section.ofDefinition definition := by
  cases definition with
  | type declared =>
    cases kind : declared.kind <;>
      simp [Definition.viewed, TypeDef.viewed, TypeKind.viewed, Section.ofDefinition,
        Section.ofKind, kind]
  | _ => rfl

theorem name_entry_viewed (view : CodeView) (definition : Definition) :
    (entry (definition.viewed view)).name = (entry definition).name := by
  cases definition <;> rfl

section

variable {doc other : Document} (alike : doc.viewed masked = other.viewed masked)
include alike

theorem definitionsIn_alike (part : Section) :
    (definitionsIn doc part).map (·.viewed masked) =
      (definitionsIn other part).map (·.viewed masked) := by
  have definitions := congrArg Document.definitions alike
  have inPart (doc : Document) : (definitionsIn doc part).map (·.viewed masked) =
      (doc.definitions.map (·.viewed masked)).filter (Section.ofDefinition · = part) := by
    rw [List.filter_map, definitionsIn]
    refine congrArg _ (List.filter_congr fun definition _ => ?_)
    rw [Function.comp_apply, ofDefinition_viewed]
  rw [inPart, inPart]
  exact congrArg _ definitions

theorem contents_alike :
    String.join ((outline doc).map contentsOf) = String.join ((outline other).map contentsOf) := by
  rw [join_outline, join_outline]
  refine congrArg String.join (List.map_congr_left fun part _ => ?_)
  have names : ((definitionsIn doc part).map entry).map Entry.name =
      ((definitionsIn other part).map entry).map Entry.name := by
    have viewed (definitions : List Definition) : (definitions.map entry).map Entry.name =
        (definitions.map (·.viewed masked)).map fun definition => (entry definition).name := by
      rw [List.map_map, List.map_map]
      exact List.map_congr_left fun definition _ => (name_entry_viewed masked definition).symm
    rw [viewed, viewed, definitionsIn_alike alike]
  have links (entries : List Entry) :
      (entries.map fun entry => "\t* [" ++ entry.name ++ "](#" ++ anchor entry.name ++ ")\n") =
        (entries.map Entry.name).map fun name =>
          "\t* [" ++ name ++ "](#" ++ anchor name ++ ")\n" := by
    rw [List.map_map]
    rfl
  unfold sectionIn contentsOf
  rw [isEmpty_of_map (definitionsIn_alike alike part), links, links, names]

theorem tells_sections (good : doc.WellFormed) (good' : other.WellFormed) :
    Tells (String.join ((outline doc).map sectionText))
      (String.join ((outline other).map sectionText))
      (∀ part ∈ Section.all, (definitionsIn doc part).map (·.viewed plain) =
        (definitionsIn other part).map (·.viewed plain)) := by
  rw [join_outline, join_outline]
  refine Tells.joined fun part _ => ?_
  have definitions := definitionsIn_alike alike part
  exact Tells.unlessEmpty (isEmpty_of_map definitions) (tells_section part definitions
    (fun definition member => good definition (List.mem_filter.mp member).1)
    (fun definition member => good' definition (List.mem_filter.mp member).1))

end

theorem mem_all (part : Section) : part ∈ Section.all := by
  cases part <;> decide

/-- Definitions that are alike stand in the same sections, so the sections make up the whole. -/
theorem map_plain_eq_of_sections {definitions others : List Definition}
    (alike : definitions.map (·.viewed masked) = others.map (·.viewed masked))
    (each : ∀ part, (definitions.filter (Section.ofDefinition · = part)).map (·.viewed plain) =
      (others.filter (Section.ofDefinition · = part)).map (·.viewed plain)) :
    definitions.map (·.viewed plain) = others.map (·.viewed plain) := by
  induction definitions generalizing others with
  | nil =>
    obtain rfl : others = [] := List.map_eq_nil_iff.mp alike.symm
    rfl
  | cons definition definitions ih =>
    cases others with
    | nil => cases alike
    | cons definition' others =>
      obtain ⟨one, more⟩ := List.cons.inj alike
      have place : Section.ofDefinition definition' = Section.ofDefinition definition := by
        rw [← ofDefinition_viewed masked definition', ← ofDefinition_viewed masked definition]
        exact congrArg Section.ofDefinition one.symm
      have first := each (Section.ofDefinition definition)
      simp only [List.filter_cons, place, decide_true, if_true, List.map_cons,
        List.cons.injEq] at first
      rw [List.map_cons, List.map_cons, first.1, ih more fun part => ?_]
      by_cases here : Section.ofDefinition definition = part
      · rw [← here]
        exact first.2
      · have later := each part
        simpa only [List.filter_cons, place, here, decide_false, Bool.false_eq_true, if_false]
          using later

/-- Documents that are alike but for the code on their pages have one page only if the code is the
same. -/
theorem viewed_plain_eq_of_markdown {doc other : Document} (good : doc.WellFormed)
    (good' : other.WellFormed) (alike : doc.viewed masked = other.viewed masked)
    {options : PageOptions} (same : markdown doc options = markdown other options) :
    doc.viewed plain = other.viewed plain := by
  obtain ⟨title, path, listed⟩ := Document.mk.inj alike
  unfold markdown at same
  rw [title, contents_alike alike] at same
  have told := ((tells_sections alike good good').behind _).holds same
  have definitions := map_plain_eq_of_sections listed fun part => told part (mem_all part)
  rw [Document.viewed, Document.viewed, title, path, definitions]

end Page

end SchemaCompiler
