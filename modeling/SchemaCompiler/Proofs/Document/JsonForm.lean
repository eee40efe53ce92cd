import SchemaCompiler.Document.Json
import SchemaCompiler.Proofs.Json.RecordReading

/-!
The JSON form of a document keeps everything: each part decodes to itself, and its form holds whole
numbers only.
-/

namespace SchemaCompiler

open Json (Whole Decoded)
open Json.Slots (Takes takes_slot takes_absent)

/-- A record that is decoded and then put together. -/
theorem decodes_bind {σ α β : Type} {slots : Json.Slots σ α} {names : List String}
    {members : List (String × Json)} {a : α} (takes : slots.Takes names members a) (name : String)
    (count : Nat) (build : α → Decoded β) :
    (slots.decode name count (.object members) >>= build) = build a := by
  rw [takes.decode]
  rfl

/-! ## Positions, type references and constants -/

theorem Position.whole_toJson (p : Position) : p.toJson.Whole := by
  have small (n : UInt32) : n.toNat ≤ Json.Reader.maxSignificand := by
    have := n.toNat_lt
    unfold Json.Reader.maxSignificand
    omega
  refine .object fun m hm => ?_
  simp only [List.mem_cons, List.not_mem_nil, or_false] at hm
  obtain rfl | rfl := hm
  · exact .number (small p.line)
  · exact .number (small p.column)

theorem Position.ofJson_toJson (p : Position) : Position.ofJson p.toJson = .ok p := by
  have takes := (takes_slot "line" none (Json.asUInt32_toNat p.line)).pair
    (takes_slot "column" none (Json.asUInt32_toNat p.column)) (by decide)
  exact decodes_bind takes _ _ _

theorem TypeRef.whole_toJson (ref : TypeRef) : ref.toJson.Whole := by
  induction ref with
  | named name => exact .object (by simpa using .string name)
  | list inner ih => exact .object (by simpa using ih)
  | nonNull inner ih => exact .object (by simpa using ih)

theorem TypeRef.ofJson_toJson (ref : TypeRef) : TypeRef.ofJson ref.toJson = .ok ref := by
  induction ref with
  | named name => rfl
  | list inner ih =>
    rw [toJson, ofJson, if_neg (by decide), if_pos rfl, ih]
    rfl
  | nonNull inner ih =>
    rw [toJson, ofJson, if_neg (by decide), if_neg (by decide), if_pos rfl, ih]
    rfl

namespace Value

theorem whole_tagged (kind : String) {content : Json} (h : content.Whole) :
    (tagged kind content).Whole := by
  refine .object fun m hm => ?_
  simp only [List.mem_cons, List.not_mem_nil, or_false] at hm
  obtain rfl | rfl := hm
  · exact .string kind
  · exact h

/-- The content behind a known kind. -/
theorem ofJson_tagged (name : String) (kind : Kind)
    (h : Json.pickVariant Kind.variants name = .ok kind) (content : Json) :
    ofJson (tagged name content) = ofContent content kind := by
  have asKind : Json.asUnitVariant Kind.variants (.string name) = .ok kind := by
    change (Json.pickVariant Kind.variants name >>= fun a => _) = _
    rw [h]
    rfl
  have other : ¬"value" = "kind" := by decide
  rw [tagged, ofJson, ofMembers, if_pos rfl]
  simp only [asKind, bind, Except.bind]
  rw [ofMembers, if_neg other, if_pos rfl]
  cases ofContent content kind <;> rfl

mutual

theorem whole_toJson : (v : Value) → v.toJson.Whole
  | .int text => whole_tagged "int" (.string text)
  | .float text => whole_tagged "float" (.string text)
  | .string value => whole_tagged "string" (.string value)
  | .boolean value => whole_tagged "boolean" (.boolean value)
  | .null => .object (by simpa using .string "null")
  | .enum name => whole_tagged "enum" (.string name)
  | .list items => whole_tagged "list" (.array (whole_itemsToJson items))
  | .object entries => whole_tagged "object" (.array (whole_entriesToJson entries))

theorem whole_itemsToJson : (items : List Value) → ∀ j ∈ itemsToJson items, j.Whole
  | [] => by
    intro j hj
    cases hj
  | item :: items => by
    intro j hj
    rcases List.mem_cons.1 hj with rfl | hj
    · exact whole_toJson item
    · exact whole_itemsToJson items j hj

theorem whole_entriesToJson :
    (entries : List (String × Value)) → ∀ j ∈ entriesToJson entries, j.Whole
  | [] => by
    intro j hj
    cases hj
  | (name, value) :: entries => by
    intro j hj
    rcases List.mem_cons.1 hj with rfl | hj
    · refine .array fun part hpart => ?_
      simp only [List.mem_cons, List.not_mem_nil, or_false] at hpart
      obtain rfl | rfl := hpart
      · exact .string name
      · exact whole_toJson value
    · exact whole_entriesToJson entries j hj

end

mutual

theorem ofJson_toJson : (v : Value) → ofJson v.toJson = .ok v
  | .int text => by
    rw [toJson, ofJson_tagged "int" .int rfl]
    rfl
  | .float text => by
    rw [toJson, ofJson_tagged "float" .float rfl]
    rfl
  | .string value => by
    rw [toJson, ofJson_tagged "string" .string rfl]
    rfl
  | .boolean value => by
    rw [toJson, ofJson_tagged "boolean" .boolean rfl]
    rfl
  | .null => by
    rw [toJson]
    rfl
  | .enum name => by
    rw [toJson, ofJson_tagged "enum" .enum rfl]
    rfl
  | .list items => by
    rw [toJson, ofJson_tagged "list" .list rfl, ofContent, ofItems_itemsToJson items]
    rfl
  | .object entries => by
    rw [toJson, ofJson_tagged "object" .object rfl, ofContent,
      ofEntries_entriesToJson entries]
    rfl

theorem ofItems_itemsToJson : (items : List Value) → ofItems (itemsToJson items) = .ok items
  | [] => rfl
  | item :: items => by
    rw [itemsToJson, ofItems, ofJson_toJson item, ofItems_itemsToJson items]
    rfl

theorem ofEntries_entriesToJson :
    (entries : List (String × Value)) → ofEntries (entriesToJson entries) = .ok entries
  | [] => rfl
  | (name, value) :: entries => by
    rw [entriesToJson, ofEntries, ofJson_toJson value, ofEntries_entriesToJson entries]
    rfl

end

end Value

/-! ## Parts that many records have -/

theorem whole_member {name : String} {j : Json} (h : j.Whole) : ∀ m ∈ [(name, j)], m.2.Whole := by
  intro m hm
  rw [List.mem_singleton.1 hm]
  exact h

theorem whole_append {members more : List (String × Json)} (h : ∀ m ∈ members, m.2.Whole)
    (hmore : ∀ m ∈ more, m.2.Whole) : ∀ m ∈ members ++ more, m.2.Whole := by
  intro m hm
  rcases List.mem_append.1 hm with hm | hm
  · exact h m hm
  · exact hmore m hm

theorem whole_cons {m : String × Json} {more : List (String × Json)} (h : m.2.Whole)
    (hmore : ∀ m ∈ more, m.2.Whole) : ∀ x ∈ m :: more, x.2.Whole :=
  whole_append (whole_member h) hmore

theorem whole_map {α : Type} {encode : α → Json} (h : ∀ a, (encode a).Whole) (as : List α) :
    (Json.array (as.map encode)).Whole := by
  refine .array fun j hj => ?_
  obtain ⟨a, -, rfl⟩ := List.mem_map.1 hj
  exact h a

theorem whole_strings (names : List String) : (Json.strings names).Whole :=
  whole_map (fun name => .string name) names

theorem whole_optionalMember {α : Type} (name : String) {encode : α → Json}
    (h : ∀ a, (encode a).Whole) (value : Option α) :
    ∀ m ∈ Json.optionalMember name encode value, m.2.Whole := by
  cases value with
  | none =>
    intro m hm
    cases hm
  | some a => exact whole_member (h a)

theorem whole_descriptionMember (text : Option String) :
    ∀ m ∈ Json.descriptionMember text, m.2.Whole :=
  whole_optionalMember "description" (fun text => .string text) text

theorem asList_strings (names : List String) :
    Json.asList Json.asString (Json.strings names) = .ok names :=
  Json.asList_map names fun _ _ => rfl

theorem takes_description (text : Option String) :
    Json.descriptionSlot.Takes ["description"] (Json.descriptionMember text) text := by
  cases text with
  | none => exact takes_absent "description" _ none
  | some text => exact takes_slot "description" (some none) rfl

theorem takes_name (name : String) :
    (Json.Slots.required "name" Json.asString).Takes ["name"] [("name", .string name)] name :=
  takes_slot "name" none rfl

theorem takes_position (p : Position) :
    Json.positionSlot.Takes ["position"] [("position", p.toJson)] p :=
  takes_slot "position" none p.ofJson_toJson

/-! ## Directives -/

theorem Argument.whole_toJson (a : Argument) : a.toJson.Whole :=
  .object (whole_cons (.string a.name) (whole_member a.value.whole_toJson))

theorem Argument.ofJson_toJson (a : Argument) : Argument.ofJson a.toJson = .ok a := by
  have name := takes_name a.name
  have value := takes_slot "value" none a.value.ofJson_toJson
  exact decodes_bind (name.pair value (by decide)) _ _ _

theorem DirectiveUse.whole_toJson (u : DirectiveUse) : u.toJson.Whole :=
  .object (whole_cons (.string u.name) (whole_cons (whole_map Argument.whole_toJson u.args)
    (whole_member u.position.whole_toJson)))

theorem DirectiveUse.ofJson_toJson (u : DirectiveUse) : DirectiveUse.ofJson u.toJson = .ok u := by
  have name := takes_name u.name
  have args := takes_slot "args" (some [])
    (Json.asList_map u.args fun a _ => Argument.ofJson_toJson a)
  have rest := args.pair (takes_position u.position) (by decide)
  exact decodes_bind (name.pair rest (by decide)) _ _ _

theorem takes_directives (uses : List DirectiveUse) :
    Json.directivesSlot.Takes ["directives"] [Json.directivesMember uses] uses :=
  takes_slot "directives" (some []) (Json.asList_map uses fun u _ => u.ofJson_toJson)

/-- Directives and position end most records. -/
theorem takes_ending (uses : List DirectiveUse) (p : Position) :
    (Json.directivesSlot.pair Json.positionSlot).Takes ["directives", "position"]
      [Json.directivesMember uses, ("position", p.toJson)] (uses, p) :=
  (takes_directives uses).pair (takes_position p) (by decide)

theorem whole_directivesMember (uses : List DirectiveUse) : (Json.directivesMember uses).2.Whole :=
  whole_map DirectiveUse.whole_toJson uses

theorem whole_ending (uses : List DirectiveUse) (p : Position) :
    ∀ m ∈ [Json.directivesMember uses, ("position", p.toJson)], m.2.Whole :=
  whole_cons (whole_directivesMember uses) (whole_member p.whole_toJson)

/-! ## Arguments, fields and enum values -/

theorem InputValue.whole_toJson (v : InputValue) : v.toJson.Whole := by
  refine .object ?_
  simp only [List.append_assoc]
  exact whole_append (whole_member (.string v.name)) <| whole_append (whole_descriptionMember v.description) <|
    whole_append (whole_member v.ty.whole_toJson) <|
    whole_append (whole_optionalMember "default" Value.whole_toJson v.default) <|
    whole_ending v.directives v.position

theorem takes_default (value : Option Value) :
    (Json.Slots.optional "default" (Json.asOptional Value.ofJson) none).Takes ["default"]
      (Json.optionalMember "default" Value.toJson value) value := by
  cases value with
  | none => exact takes_absent "default" _ none
  | some v =>
    refine takes_slot "default" (some none) ?_
    -- every constant is an object, so it is never taken for a missing one
    obtain ⟨members, hmembers⟩ : ∃ members, v.toJson = .object members := by
      cases v <;> exact ⟨_, Value.toJson.eq_def _⟩
    have read := v.ofJson_toJson
    rw [hmembers] at read ⊢
    exact Json.asOptional_of_object read

theorem InputValue.ofJson_toJson (v : InputValue) : InputValue.ofJson v.toJson = .ok v := by
  have name := takes_name v.name
  have ty := takes_slot "ty" none v.ty.ofJson_toJson
  have takes := name.pair ((takes_description v.description).pair (ty.pair
    ((takes_default v.default).pair (takes_ending v.directives v.position) (by decide))
    (by decide)) (by decide)) (by decide)
  rw [toJson]
  simp only [List.append_assoc]
  exact decodes_bind takes _ _ _

theorem Field.whole_toJson (f : Field) : f.toJson.Whole := by
  refine .object ?_
  simp only [List.append_assoc]
  exact whole_append (whole_member (.string f.name)) <| whole_append (whole_descriptionMember f.description) <|
    whole_cons (whole_map InputValue.whole_toJson f.args) <| whole_cons f.ty.whole_toJson <|
    whole_ending f.directives f.position

theorem Field.ofJson_toJson (f : Field) : Field.ofJson f.toJson = .ok f := by
  have name := takes_name f.name
  have args := takes_slot "args" (some [])
    (Json.asList_map f.args fun v _ => InputValue.ofJson_toJson v)
  have ty := takes_slot "ty" none f.ty.ofJson_toJson
  have takes := name.pair ((takes_description f.description).pair (args.pair
    (ty.pair (takes_ending f.directives f.position) (by decide)) (by decide)) (by decide))
    (by decide)
  rw [toJson]
  simp only [List.append_assoc]
  exact decodes_bind takes _ _ _

theorem EnumValue.whole_toJson (v : EnumValue) : v.toJson.Whole := by
  refine .object ?_
  simp only [List.append_assoc]
  exact whole_append (whole_member (.string v.name)) <| whole_append (whole_descriptionMember v.description) <|
    whole_ending v.directives v.position

theorem EnumValue.ofJson_toJson (v : EnumValue) : EnumValue.ofJson v.toJson = .ok v := by
  have name := takes_name v.name
  have takes := name.pair ((takes_description v.description).pair
    (takes_ending v.directives v.position) (by decide)) (by decide)
  rw [toJson]
  simp only [List.append_assoc]
  exact decodes_bind takes _ _ _

/-! ## Kinds of types -/

theorem TypeKind.whole_toJson (kind : TypeKind) : kind.toJson.Whole := by
  cases kind with
  | scalar => exact .object (whole_member (.string _))
  | object interfaces fields =>
    exact .object (whole_cons (.string _) (whole_cons (whole_strings interfaces)
      (whole_member (whole_map Field.whole_toJson fields))))
  | interface interfaces fields =>
    exact .object (whole_cons (.string _) (whole_cons (whole_strings interfaces)
      (whole_member (whole_map Field.whole_toJson fields))))
  | union members =>
    exact .object (whole_cons (.string _) (whole_member (whole_strings members)))
  | «enum» values =>
    exact .object (whole_cons (.string _) (whole_member (whole_map EnumValue.whole_toJson values)))
  | inputObject fields =>
    exact .object (whole_cons (.string _)
      (whole_member (whole_map InputValue.whole_toJson fields)))

/-- The content behind a known tag. -/
theorem TypeKind.ofJson_tagged (name : String) {decode : Json → Decoded TypeKind}
    (h : Json.pickVariant decoders name = .ok decode) {members : List (String × Json)}
    (apart : ∀ m ∈ members, m.1 ≠ "type") :
    TypeKind.ofJson (.object (("type", .string name) :: members)) = decode (.object members) := by
  have tag : TypeKind.decoder (.string name) = .ok decode := h
  rw [TypeKind.ofJson, Json.asTagged_cons tag apart]
  rfl

theorem takes_interfaces_fields (interfaces : List String) (fields : List Field) :
    ((Json.Slots.optional "interfaces" (Json.asList Json.asString) []).pair
      (.optional "fields" (Json.asList Field.ofJson) [])).Takes ["interfaces", "fields"]
      [("interfaces", Json.strings interfaces), ("fields", .array (fields.map Field.toJson))]
      (interfaces, fields) :=
  (takes_slot "interfaces" (some []) (asList_strings interfaces)).pair
    (takes_slot "fields" (some []) (Json.asList_map fields fun f _ => f.ofJson_toJson))
    (by decide)

theorem TypeKind.ofJson_toJson (kind : TypeKind) : TypeKind.ofJson kind.toJson = .ok kind := by
  cases kind with
  | scalar => rfl
  | object interfaces fields =>
    refine (ofJson_tagged "object" rfl (by simp)).trans ?_
    exact decodes_bind (takes_interfaces_fields interfaces fields) _ _ _
  | interface interfaces fields =>
    refine (ofJson_tagged "interface" rfl (by simp)).trans ?_
    exact decodes_bind (takes_interfaces_fields interfaces fields) _ _ _
  | union members =>
    refine (ofJson_tagged "union" rfl (by simp)).trans ?_
    exact decodes_bind (takes_slot "members" (some []) (asList_strings members)) _ _ _
  | «enum» values =>
    refine (ofJson_tagged "enum" rfl (by simp)).trans ?_
    exact decodes_bind (takes_slot "values" (some [])
      (Json.asList_map values fun v _ => v.ofJson_toJson)) _ _ _
  | inputObject fields =>
    refine (ofJson_tagged "input_object" rfl (by simp)).trans ?_
    exact decodes_bind (takes_slot "fields" (some [])
      (Json.asList_map fields fun v _ => v.ofJson_toJson)) _ _ _

/-! ## Definitions -/

theorem Operation.decodes_keyword (operation : Operation) :
    Json.asUnitVariant Operation.variants (.string operation.keyword) = .ok operation := by
  cases operation <;> rfl

theorem OperationType.whole_toJson (o : OperationType) : o.toJson.Whole :=
  .object (whole_cons (.string _) (whole_cons (.string _) (whole_member o.position.whole_toJson)))

theorem OperationType.ofJson_toJson (o : OperationType) : OperationType.ofJson o.toJson = .ok o := by
  have operation := takes_slot "operation" none o.operation.decodes_keyword
  have typeName : (Json.Slots.required "type_name" Json.asString).Takes ["type_name"]
      [("type_name", .string o.typeName)] o.typeName := takes_slot "type_name" none rfl
  have rest := typeName.pair (takes_position o.position) (by decide)
  exact decodes_bind (operation.pair rest (by decide)) _ _ _

theorem SchemaDef.whole_members (s : SchemaDef) : ∀ m ∈ s.members, m.2.Whole :=
  whole_append (whole_descriptionMember s.description) <|
    whole_cons (.boolean s.extension) <| whole_cons (whole_directivesMember s.directives) <|
    whole_cons (whole_map OperationType.whole_toJson s.operations) <|
    whole_member s.position.whole_toJson

theorem takes_boolean (name : String) (value : Bool) :
    (Json.Slots.optional name Json.asBoolean false).Takes [name] [(name, .boolean value)] value :=
  takes_slot name (some false) rfl

/-- The members make up the definition, and none of them has the name of a definition's tag. -/
theorem SchemaDef.ofJson_members (s : SchemaDef) :
    SchemaDef.ofJson (.object s.members) = .ok s ∧ ∀ m ∈ s.members, m.1 ≠ "definition" := by
  have operations := takes_slot "operations" (some [])
    (Json.asList_map s.operations fun o _ => o.ofJson_toJson)
  have takes := (takes_description s.description).pair ((takes_boolean "extension" s.extension).pair
    ((takes_directives s.directives).pair
      (operations.pair (takes_position s.position) (by decide)) (by decide)) (by decide)) (by decide)
  exact ⟨decodes_bind takes _ _ _, takes.apart (by decide)⟩

theorem TypeDef.whole_members (t : TypeDef) : ∀ m ∈ t.members, m.2.Whole := by
  unfold TypeDef.members
  simp only [List.append_assoc]
  exact whole_append (whole_member (.string t.name)) <|
    whole_append (whole_descriptionMember t.description) <|
    whole_cons (whole_directivesMember t.directives) <| whole_cons t.kind.whole_toJson <|
    whole_member t.position.whole_toJson

theorem TypeDef.ofJson_members (t : TypeDef) :
    TypeDef.ofJson (.object t.members) = .ok t ∧ ∀ m ∈ t.members, m.1 ≠ "definition" := by
  have kind := takes_slot "kind" none t.kind.ofJson_toJson
  have takes := (takes_name t.name).pair ((takes_description t.description).pair
    ((takes_directives t.directives).pair (kind.pair (takes_position t.position) (by decide))
      (by decide)) (by decide)) (by decide)
  rw [TypeDef.members]
  simp only [List.append_assoc]
  exact ⟨decodes_bind takes _ _ _, takes.apart (by decide)⟩

theorem DirectiveDef.whole_members (d : DirectiveDef) : ∀ m ∈ d.members, m.2.Whole := by
  unfold DirectiveDef.members
  simp only [List.append_assoc]
  exact whole_append (whole_member (.string d.name)) <|
    whole_append (whole_descriptionMember d.description) <|
    whole_cons (whole_map InputValue.whole_toJson d.args) <|
    whole_cons (.boolean d.repeatable) <| whole_cons (whole_strings d.locations) <|
    whole_member d.position.whole_toJson

theorem DirectiveDef.ofJson_members (d : DirectiveDef) :
    DirectiveDef.ofJson (.object d.members) = .ok d ∧ ∀ m ∈ d.members, m.1 ≠ "definition" := by
  have args := takes_slot "args" (some [])
    (Json.asList_map d.args fun v _ => InputValue.ofJson_toJson v)
  have locations := takes_slot "locations" none (asList_strings d.locations)
  have takes := (takes_name d.name).pair ((takes_description d.description).pair
    (args.pair ((takes_boolean "repeatable" d.repeatable).pair
      (locations.pair (takes_position d.position) (by decide)) (by decide)) (by decide))
    (by decide)) (by decide)
  rw [DirectiveDef.members]
  simp only [List.append_assoc]
  exact ⟨decodes_bind takes _ _ _, takes.apart (by decide)⟩

namespace Definition

/-- The tag that announces a definition. -/
def tag : Definition → Tag
  | schema _ => .schema
  | type _ => .type
  | extend _ => .extend
  | directive _ => .directive

def tagName : Definition → String
  | schema _ => "schema"
  | type _ => "type"
  | extend _ => "extend"
  | directive _ => "directive"

/-- What stands behind the tag. -/
def members : Definition → List (String × Json)
  | schema s => s.members
  | type t => t.members
  | extend t => t.members
  | directive d => d.members

theorem toJson_eq (definition : Definition) :
    definition.toJson =
      .object (("definition", .string definition.tagName) :: definition.members) := by
  cases definition <;> rfl

theorem pickVariant_tagName (definition : Definition) :
    Json.pickVariant Tag.variants definition.tagName = .ok definition.tag := by
  cases definition <;> rfl

theorem ofTagged_members (definition : Definition) :
    ofTagged definition.tag (.object definition.members) = .ok definition := by
  cases definition with
  | schema s => rw [tag, members, ofTagged, s.ofJson_members.1]; rfl
  | type t => rw [tag, members, ofTagged, t.ofJson_members.1]; rfl
  | extend t => rw [tag, members, ofTagged, t.ofJson_members.1]; rfl
  | directive d => rw [tag, members, ofTagged, d.ofJson_members.1]; rfl

theorem whole_members (definition : Definition) : ∀ m ∈ definition.members, m.2.Whole := by
  cases definition with
  | schema s => exact s.whole_members
  | type t => exact t.whole_members
  | extend t => exact t.whole_members
  | directive d => exact d.whole_members

theorem whole_toJson (definition : Definition) : definition.toJson.Whole := by
  rw [toJson_eq]
  exact .object (whole_cons (.string _) definition.whole_members)

theorem members_ne_tag (definition : Definition) :
    ∀ m ∈ definition.members, m.1 ≠ "definition" := by
  cases definition with
  | schema s => exact s.ofJson_members.2
  | type t => exact t.ofJson_members.2
  | extend t => exact t.ofJson_members.2
  | directive d => exact d.ofJson_members.2

end Definition

theorem Document.whole_toJson (doc : Document) : doc.toJson.Whole :=
  .object (whole_cons (.string _) (whole_cons (.string _)
    (whole_member (whole_map Definition.whole_toJson doc.definitions))))

end SchemaCompiler
