import SchemaCompiler.Proofs.Page.Grouping
import SchemaCompiler.Proofs.Page.Telling
import SchemaCompiler.Proofs.Text.Pieces

/-!
What stands out on a page: entries with descriptions, and code.

A page describes the fields, arguments, input fields and enum values of its document that have
descriptions, and shows default values and applied directives as code. All of these stand on the
page in the order of its sections, with other text between them.
-/

namespace SchemaCompiler.Page

/-! ## Lines of a description -/

/-- Lines, each behind the indentation and a tab. -/
def tabbed (indent : String) (lines : List String) : String :=
  String.join (lines.map fun line => indent ++ "\t" ++ line ++ "\n")

theorem tabbed_nil (indent : String) : tabbed indent [] = "" := rfl

theorem tabbed_cons (indent line : String) (lines : List String) :
    tabbed indent (line :: lines) = indent ++ "\t" ++ line ++ "\n" ++ tabbed indent lines := by
  rw [tabbed, List.map_cons, String.join_cons, tabbed]

theorem intercalate_tabbed (line : String) (lines : List String) :
    "\t" ++ String.intercalate "\n\t" (line :: lines) ++ "\n" = tabbed "" (line :: lines) := by
  induction lines generalizing line with
  | nil => simp [tabbed]
  | cons next lines ih =>
    have marks : "\n\t" = "\n" ++ "\t" := rfl
    rw [String.intercalate_cons_cons, marks]
    calc "\t" ++ (line ++ ("\n" ++ "\t") ++
          String.intercalate ("\n" ++ "\t") (next :: lines)) ++ "\n"
      _ = "\t" ++ line ++ "\n" ++
          ("\t" ++ String.intercalate "\n\t" (next :: lines) ++ "\n") := by
        simp only [String.append_assoc, marks]
      _ = tabbed "" (line :: next :: lines) := by
        rw [ih next, tabbed_cons "" line, String.empty_append]

/-- The indentation of an entry stands once in front of all lines of its description. -/
theorem itemParagraph_eq {indent text : String} {line : String} {lines : List String}
    (shape : Text.lines text = line :: lines) :
    itemParagraph indent (some text) = "\n" ++ indent ++ tabbed "" (line :: lines) := by
  rw [itemParagraph, indented, shape, ← intercalate_tabbed]
  simp only [String.append_assoc]

theorem itemParagraph_empty {indent text : String} (shape : Text.lines text = []) :
    itemParagraph indent (some text) = "\n" ++ indent ++ "\t\n" := by
  have marks : "\t\n" = "\t" ++ "\n" := rfl
  rw [itemParagraph, indented, shape, marks]
  simp only [String.intercalate_nil, String.append_assoc, String.empty_append]

/-! ## Pieces -/

/-- An entry of a list with its description. -/
structure DescribedItem where
  indent : String
  /-- The line of the entry, without its indentation. -/
  head : String
  description : String

def DescribedItem.text (item : DescribedItem) : String :=
  item.indent ++ item.head ++ "\n" ++ itemParagraph item.indent (some item.description)

/-- What a page shows as code. -/
inductive Shown where
  | default (value : Value)
  | directives (uses : List DirectiveUse)

namespace Shown

/-- What the page says in front of the code. -/
def label : Shown → String
  | default _ => "*Default Value*: "
  | directives _ => "*Directives*: "

def code : Shown → String
  | default value => value.text
  | directives uses => directiveList uses

def text (shown : Shown) : String := shown.label ++ "`" ++ shown.code ++ "`"

end Shown

inductive Piece where
  | item (item : DescribedItem)
  | code (shown : Shown)

namespace Piece

def text : Piece → String
  | item i => i.text
  | code shown => shown.text

def item? : Piece → Option DescribedItem
  | item i => some i
  | code _ => none

def code? : Piece → Option Shown
  | item _ => none
  | code shown => some shown

theorem item?_eq_some_iff {piece : Piece} {i : DescribedItem} :
    piece.item? = some i ↔ piece = .item i := by
  cases piece <;> simp [item?]

theorem code?_eq_some_iff {piece : Piece} {shown : Shown} :
    piece.code? = some shown ↔ piece = .code shown := by
  cases piece <;> simp [code?]

end Piece

/-- The entry, if it has a description. -/
def itemPiece (indent head : String) (description : Option String) : List Piece :=
  description.toList.map fun text => .item ⟨indent, head, text⟩

def directivePiece (uses : List DirectiveUse) : List Piece :=
  if uses.isEmpty then [] else [.code (.directives uses)]

/-- The line of a field or an argument. -/
def typedHead (name : String) (ty : TypeRef) : String :=
  "- " ++ name ++ " **(" ++ typeLink ty ++ ")**"

def defaultPiece (default : Option Value) : List Piece :=
  default.toList.map fun value => .code (.default value)

def inputPieces (indent : String) (input : InputValue) : List Piece :=
  itemPiece indent (typedHead input.name input.ty) input.description ++
    defaultPiece input.default

def fieldPieces (field : Field) : List Piece :=
  itemPiece "" (typedHead field.name field.ty) field.description ++
    field.args.flatMap (inputPieces "\t") ++ directivePiece field.directives

def enumPieces (value : EnumValue) : List Piece :=
  itemPiece "" ("- " ++ value.name) value.description ++ directivePiece value.directives

def kindPieces : TypeKind → List Piece
  | .scalar | .union _ => []
  | .object _ fields | .interface _ fields => fields.flatMap fieldPieces
  | .enum values => values.flatMap enumPieces
  | .inputObject fields => fields.flatMap (inputPieces "")

def definitionPieces : Definition → List Piece
  | .schema root => directivePiece root.directives
  | .type declared | .extend declared =>
    directivePiece declared.directives ++ kindPieces declared.kind
  | .directive declared => declared.args.flatMap (inputPieces "")

/-- The pieces of a page, in the order of its sections. -/
def pieces (doc : Document) : List Piece :=
  (groups doc).flatMap fun part => part.2.flatMap definitionPieces

/-! ### The definitions behind them -/

/-- The document defines or extends the type. -/
def Declares (doc : Document) (type : TypeDef) : Prop :=
  .type type ∈ doc.definitions ∨ .extend type ∈ doc.definitions

/-- A field of an object or interface type. -/
def FieldOf (doc : Document) (field : Field) : Prop :=
  ∃ type, Declares doc type ∧ field ∈ type.fields

def EnumValueOf (doc : Document) (value : EnumValue) : Prop :=
  ∃ type values, Declares doc type ∧ type.kind = .enum values ∧ value ∈ values

/-- An argument or an input field, with its indentation. -/
inductive InputOf (doc : Document) : String → InputValue → Prop where
  | fieldArgument {field : Field} {arg : InputValue} (declared : FieldOf doc field)
      (member : arg ∈ field.args) : InputOf doc "\t" arg
  | inputField {type : TypeDef} {fields : List InputValue} {field : InputValue}
      (declared : Declares doc type) (kind : type.kind = .inputObject fields)
      (member : field ∈ fields) : InputOf doc "" field
  | directiveArgument {directive : DirectiveDef} {arg : InputValue}
      (declared : .directive directive ∈ doc.definitions) (member : arg ∈ directive.args) :
      InputOf doc "" arg

/-- What a document gives its page to describe or to show as code. -/
inductive PieceOf (doc : Document) : Piece → Prop where
  | field {field : Field} {text : String} (declared : FieldOf doc field)
      (described : field.description = some text) :
      PieceOf doc (.item ⟨"", typedHead field.name field.ty, text⟩)
  | enumValue {value : EnumValue} {text : String} (declared : EnumValueOf doc value)
      (described : value.description = some text) :
      PieceOf doc (.item ⟨"", "- " ++ value.name, text⟩)
  | input {indent : String} {input : InputValue} {text : String}
      (declared : InputOf doc indent input) (described : input.description = some text) :
      PieceOf doc (.item ⟨indent, typedHead input.name input.ty, text⟩)
  | default {indent : String} {input : InputValue} {value : Value}
      (declared : InputOf doc indent input) (given : input.default = some value) :
      PieceOf doc (.code (.default value))
  | schemaDirectives {root : SchemaDef} (declared : .schema root ∈ doc.definitions)
      (some : root.directives ≠ []) : PieceOf doc (.code (.directives root.directives))
  | typeDirectives {type : TypeDef} (declared : Declares doc type) (some : type.directives ≠ []) :
      PieceOf doc (.code (.directives type.directives))
  | fieldDirectives {field : Field} (declared : FieldOf doc field) (some : field.directives ≠ []) :
      PieceOf doc (.code (.directives field.directives))
  | enumValueDirectives {value : EnumValue} (declared : EnumValueOf doc value)
      (some : value.directives ≠ []) : PieceOf doc (.code (.directives value.directives))

theorem mem_pieces {doc : Document} {piece : Piece} :
    piece ∈ pieces doc ↔ ∃ definition ∈ doc.definitions, piece ∈ definitionPieces definition := by
  have listed : (groups doc).flatMap Prod.snd |>.Perm doc.definitions := by
    rw [flatMap_groups]
    exact flatMap_definitionsIn doc
  rw [pieces, ← List.flatMap_assoc, List.mem_flatMap]
  simp only [listed.mem_iff]

theorem mem_itemPiece {indent head : String} {description : Option String} {piece : Piece} :
    piece ∈ itemPiece indent head description ↔
      ∃ text, description = some text ∧ piece = .item ⟨indent, head, text⟩ := by
  cases description <;> simp [itemPiece]

theorem mem_directivePiece {uses : List DirectiveUse} {piece : Piece} :
    piece ∈ directivePiece uses ↔ uses ≠ [] ∧ piece = .code (.directives uses) := by
  cases uses <;> simp [directivePiece]

theorem mem_defaultPiece {default : Option Value} {piece : Piece} :
    piece ∈ defaultPiece default ↔
      ∃ value, default = some value ∧ piece = .code (.default value) := by
  cases default <;> simp [defaultPiece]

theorem pieceOf_of_mem_input {doc : Document} {indent : String} {input : InputValue}
    (declared : InputOf doc indent input) {piece : Piece}
    (member : piece ∈ inputPieces indent input) : PieceOf doc piece := by
  rcases List.mem_append.mp member with described | constant
  · obtain ⟨text, given, rfl⟩ := mem_itemPiece.mp described
    exact .input declared given
  · obtain ⟨value, given, rfl⟩ := mem_defaultPiece.mp constant
    exact .default declared given

theorem pieceOf_of_mem_field {doc : Document} {field : Field} (declared : FieldOf doc field)
    {piece : Piece} (member : piece ∈ fieldPieces field) : PieceOf doc piece := by
  rcases List.mem_append.mp member with front | directives
  · rcases List.mem_append.mp front with described | args
    · obtain ⟨text, given, rfl⟩ := mem_itemPiece.mp described
      exact .field declared given
    · obtain ⟨arg, listed, inside⟩ := List.mem_flatMap.mp args
      exact pieceOf_of_mem_input (.fieldArgument declared listed) inside
  · obtain ⟨some, rfl⟩ := mem_directivePiece.mp directives
    exact .fieldDirectives declared some

theorem pieceOf_of_mem_enum {doc : Document} {value : EnumValue} (declared : EnumValueOf doc value)
    {piece : Piece} (member : piece ∈ enumPieces value) : PieceOf doc piece := by
  rcases List.mem_append.mp member with described | directives
  · obtain ⟨text, given, rfl⟩ := mem_itemPiece.mp described
    exact .enumValue declared given
  · obtain ⟨some, rfl⟩ := mem_directivePiece.mp directives
    exact .enumValueDirectives declared some

theorem pieceOf_of_mem_type {doc : Document} {type : TypeDef} (declared : Declares doc type)
    {piece : Piece} (member : piece ∈ directivePiece type.directives ++ kindPieces type.kind) :
    PieceOf doc piece := by
  rcases List.mem_append.mp member with directives | parts
  · obtain ⟨some, rfl⟩ := mem_directivePiece.mp directives
    exact .typeDirectives declared some
  · cases kind : type.kind with
    | scalar | union =>
      rw [kind] at parts
      cases parts
    | object interfaces fields | interface interfaces fields =>
      rw [kind] at parts
      obtain ⟨field, listed, inside⟩ := List.mem_flatMap.mp parts
      refine pieceOf_of_mem_field ⟨type, declared, ?_⟩ inside
      simpa [TypeDef.fields, kind] using listed
    | enum values =>
      rw [kind] at parts
      obtain ⟨value, listed, inside⟩ := List.mem_flatMap.mp parts
      exact pieceOf_of_mem_enum ⟨type, values, declared, kind, listed⟩ inside
    | inputObject fields =>
      rw [kind] at parts
      obtain ⟨field, listed, inside⟩ := List.mem_flatMap.mp parts
      exact pieceOf_of_mem_input (.inputField declared kind listed) inside

theorem mem_pieces_type {doc : Document} {type : TypeDef} (declared : Declares doc type)
    {piece : Piece} (member : piece ∈ directivePiece type.directives ++ kindPieces type.kind) :
    piece ∈ pieces doc := by
  rw [mem_pieces]
  exact declared.elim (fun here => ⟨_, here, member⟩) fun here => ⟨_, here, member⟩

theorem mem_pieces_field {doc : Document} {field : Field} (declared : FieldOf doc field)
    {piece : Piece} (member : piece ∈ fieldPieces field) : piece ∈ pieces doc := by
  obtain ⟨type, declared, listed⟩ := declared
  refine mem_pieces_type declared (List.mem_append_right _ ?_)
  unfold TypeDef.fields at listed
  split at listed
  · next kind =>
    rw [kind]
    exact List.mem_flatMap.mpr ⟨field, listed, member⟩
  · next kind =>
    rw [kind]
    exact List.mem_flatMap.mpr ⟨field, listed, member⟩
  · cases listed

theorem mem_pieces_enum {doc : Document} {value : EnumValue} (declared : EnumValueOf doc value)
    {piece : Piece} (member : piece ∈ enumPieces value) : piece ∈ pieces doc := by
  obtain ⟨type, values, declared, kind, listed⟩ := declared
  refine mem_pieces_type declared (List.mem_append_right _ ?_)
  rw [kind]
  exact List.mem_flatMap.mpr ⟨value, listed, member⟩

theorem mem_pieces_input {doc : Document} {indent : String} {input : InputValue}
    (declared : InputOf doc indent input) {piece : Piece}
    (member : piece ∈ inputPieces indent input) : piece ∈ pieces doc := by
  cases declared with
  | fieldArgument declared listed =>
    refine mem_pieces_field declared (List.mem_append_left _ (List.mem_append_right _ ?_))
    exact List.mem_flatMap.mpr ⟨input, listed, member⟩
  | inputField declared kind listed =>
    refine mem_pieces_type declared (List.mem_append_right _ ?_)
    rw [kind]
    exact List.mem_flatMap.mpr ⟨input, listed, member⟩
  | directiveArgument declared listed =>
    exact mem_pieces.mpr ⟨_, declared, List.mem_flatMap.mpr ⟨input, listed, member⟩⟩

/-- The pieces are what the document has to describe or to show as code. -/
theorem mem_pieces_iff {doc : Document} {piece : Piece} :
    piece ∈ pieces doc ↔ PieceOf doc piece := by
  constructor
  · intro member
    obtain ⟨definition, declared, inside⟩ := mem_pieces.mp member
    cases definition with
    | schema root =>
      obtain ⟨some, rfl⟩ := mem_directivePiece.mp inside
      exact .schemaDirectives declared some
    | type type => exact pieceOf_of_mem_type (.inl declared) inside
    | extend type => exact pieceOf_of_mem_type (.inr declared) inside
    | directive directive =>
      obtain ⟨arg, listed, inside⟩ := List.mem_flatMap.mp inside
      exact pieceOf_of_mem_input (.directiveArgument declared listed) inside
  · intro has
    cases has with
    | field declared described =>
      refine mem_pieces_field declared (List.mem_append_left _ (List.mem_append_left _ ?_))
      exact mem_itemPiece.mpr ⟨_, described, rfl⟩
    | enumValue declared described =>
      refine mem_pieces_enum declared (List.mem_append_left _ ?_)
      exact mem_itemPiece.mpr ⟨_, described, rfl⟩
    | input declared described =>
      refine mem_pieces_input declared (List.mem_append_left _ ?_)
      exact mem_itemPiece.mpr ⟨_, described, rfl⟩
    | default declared given =>
      refine mem_pieces_input declared (List.mem_append_right _ ?_)
      exact mem_defaultPiece.mpr ⟨_, given, rfl⟩
    | schemaDirectives declared some =>
      exact mem_pieces.mpr ⟨_, declared, mem_directivePiece.mpr ⟨some, rfl⟩⟩
    | typeDirectives declared some =>
      exact mem_pieces_type declared
        (List.mem_append_left _ (mem_directivePiece.mpr ⟨some, rfl⟩))
    | fieldDirectives declared some =>
      exact mem_pieces_field declared
        (List.mem_append_right _ (mem_directivePiece.mpr ⟨some, rfl⟩))
    | enumValueDirectives declared some =>
      exact mem_pieces_enum declared
        (List.mem_append_right _ (mem_directivePiece.mpr ⟨some, rfl⟩))

/-- Pieces of one kind. -/
theorem mem_filterMap_pieces {α : Type} {kind : Piece → Option α} {of : α → Piece}
    (inverse : ∀ {piece a}, kind piece = some a ↔ piece = of a) {doc : Document} {a : α} :
    a ∈ (pieces doc).filterMap kind ↔ PieceOf doc (of a) := by
  rw [← mem_pieces_iff, List.mem_filterMap]
  simp only [inverse, exists_eq_right]

/-- The pieces stand in the text in this order, none inside another. -/
inductive Shows : List Piece → String → Prop where
  | nothing (text : String) : Shows [] text
  | last {pieces : List Piece} {front : String} (shown : Shows pieces front) (piece : Piece)
      (back : String) : Shows (pieces ++ [piece]) (front ++ piece.text ++ back)

namespace Shows

variable {pieces others : List Piece} {text more : String}

theorem behind (h : Shows pieces text) (more : String) : Shows pieces (text ++ more) := by
  cases h with
  | nothing => exact .nothing _
  | last shown piece back =>
    rw [String.append_assoc]
    exact .last shown piece (back ++ more)

theorem append (h : Shows pieces text) (h' : Shows others more) :
    Shows (pieces ++ others) (text ++ more) := by
  induction h' with
  | nothing more =>
    rw [List.append_nil]
    exact h.behind more
  | last _ piece back ih =>
    rw [← List.append_assoc, ← String.append_assoc, ← String.append_assoc]
    exact .last ih piece back

theorem before (front : String) (h : Shows pieces text) : Shows pieces (front ++ text) :=
  (nothing front).append h

theorem alone (piece : Piece) : Shows [piece] piece.text := by
  have shown := (nothing "").last piece ""
  rwa [String.empty_append, String.append_empty] at shown

theorem join {α : Type} {f : α → String} {held : α → List Piece} {items : List α}
    (each : ∀ item ∈ items, Shows (held item) (f item)) :
    Shows (items.flatMap held) (String.join (items.map f)) := by
  induction items with
  | nil => exact .nothing _
  | cons item items ih =>
    obtain ⟨first, later⟩ := List.forall_mem_cons.mp each
    rw [List.flatMap_cons, List.map_cons, String.join_cons]
    exact first.append (ih later)

theorem sublist (h : Shows pieces text) (kept : others.Sublist pieces) : Shows others text := by
  induction h generalizing others with
  | nothing text =>
    obtain rfl := List.sublist_nil.mp kept
    exact .nothing text
  | last _ piece back ih =>
    obtain ⟨first, second, rfl, inFront, atEnd⟩ := List.sublist_append_iff.mp kept
    rw [String.append_assoc]
    refine (ih inFront).append ?_
    rcases List.sublist_singleton.mp atEnd with rfl | rfl
    · exact .nothing _
    · exact (alone piece).behind back

theorem filterMap {α : Type} {kind : Piece → Option α} {of : α → Piece}
    (inverse : ∀ {piece a}, kind piece = some a ↔ piece = of a) (h : Shows pieces text) :
    Shows ((pieces.filterMap kind).map of) text := by
  refine h.sublist ?_
  clear h
  induction pieces with
  | nil => exact .slnil
  | cons piece pieces ih =>
    cases given : kind piece with
    | none =>
      rw [List.filterMap_cons_none given]
      exact ih.cons _
    | some a =>
      rw [List.filterMap_cons_some given, inverse.mp given]
      exact ih.cons_cons _

end Shows

/-! ## Dropping an empty line -/

/-- The text ends in two characters that are not both line feeds. -/
def EndsFull (text : String) : Prop :=
  ∃ front a b, text.toList = front ++ [a, b] ∧ ¬(a = '\n' ∧ b = '\n')

theorem EndsFull.before (front : String) {text : String} (h : EndsFull text) :
    EndsFull (front ++ text) := by
  obtain ⟨start, a, b, shape, full⟩ := h
  refine ⟨front.toList ++ start, a, b, ?_, full⟩
  rw [String.toList_append, shape, List.append_assoc]

/-- An empty line at the end belongs to what stands behind a full text. -/
theorem EndsFull.dropEmptyEnd_append {front : String} (full : EndsFull front) (back : String) :
    ∃ rest, dropEmptyEnd (front ++ back) = front ++ rest := by
  obtain ⟨start, c, d, shape, differ⟩ := full
  have long : 2 ≤ (front ++ back).toList.length := by
    simp only [String.toList_append, shape, List.length_append, List.length_cons]
    omega
  obtain ⟨middle, a, b, split⟩ := exists_last_two long
  rw [dropEmptyEnd_eq split]
  by_cases empty : a = '\n' ∧ b = '\n'
  · obtain ⟨rfl, rfl⟩ := empty
    rw [if_pos ⟨rfl, rfl⟩]
    rw [String.toList_append] at split
    rcases back.toList.eq_nil_or_concat with none | ⟨more, last, some⟩
    · rw [none, List.append_nil, shape] at split
      obtain ⟨-, ends⟩ := List.append_inj' split rfl
      simp only [List.cons.injEq, and_true] at ends
      exact absurd ends differ
    · refine ⟨String.ofList more, ?_⟩
      have lines : middle ++ ['\n', '\n'] = middle ++ ['\n'] ++ ['\n'] := by simp
      rw [some, List.concat_eq_append, ← List.append_assoc, lines] at split
      obtain ⟨rest, -⟩ := List.append_inj' split rfl
      rw [← rest, String.ofList_append, String.ofList_toList]
  · exact ⟨back, if_neg empty⟩

theorem endsFull_of_last {front : List Char} {a b : Char} {text : String}
    (shape : text.toList = front ++ [b]) (last : front.getLast? = some a)
    (full : ¬(a = '\n' ∧ b = '\n')) : EndsFull text := by
  obtain ⟨start, rfl⟩ := List.getLast?_eq_some_iff.mp last
  exact ⟨start, a, b, by rw [shape, List.append_assoc]; rfl, full⟩

theorem endsFull_tabbed {line : String} {lines : List String}
    (plain : ∀ other ∈ line :: lines, '\n' ∉ other.toList) :
    EndsFull (tabbed "" (line :: lines)) := by
  obtain none | ⟨before, last, split⟩ := (line :: lines).eq_nil_or_concat
  · cases none
  rw [List.concat_eq_append] at split
  have whole : tabbed "" (line :: lines) = tabbed "" before ++ ("\t" ++ last ++ "\n") := by
    rw [split]
    simp [tabbed]
  obtain ⟨a, final⟩ : ∃ a, ('\t' :: last.toList).getLast? = some a :=
    ⟨_, List.getLast?_eq_some_getLast (List.cons_ne_nil _ _)⟩
  have shape : ("\t" ++ last ++ "\n").toList = '\t' :: last.toList ++ ['\n'] := by simp
  have inside : a ∈ '\t' :: last.toList := List.mem_of_getLast? final
  rw [whole]
  refine EndsFull.before _ (endsFull_of_last shape final ?_)
  rintro ⟨rfl, -⟩
  rcases List.mem_cons.mp inside with tab | ends
  · exact absurd tab (by decide)
  · exact plain last (by simp [split]) ends

theorem Shown.endsFull (shown : Shown) : EndsFull shown.text := by
  have tick : '`' ∈ (shown.label ++ "`" ++ shown.code).toList := by simp
  have last := List.getLast?_eq_some_getLast (List.ne_nil_of_mem tick)
  exact endsFull_of_last (String.toList_append ..) last fun ends => absurd ends.2 (by decide)

theorem DescribedItem.endsFull (item : DescribedItem) : EndsFull item.text := by
  refine EndsFull.before _ ?_
  cases shape : Text.lines item.description with
  | nil =>
    rw [itemParagraph_empty shape]
    have tab : EndsFull "\t\n" := ⟨[], '\t', '\n', rfl, by decide⟩
    exact tab.before _
  | cons line lines =>
    rw [itemParagraph_eq shape]
    refine EndsFull.before _ (endsFull_tabbed fun other member => ?_)
    exact Text.lineFeed_not_mem_lines (shape ▸ member)

theorem Piece.endsFull : (piece : Piece) → EndsFull piece.text
  | item i => i.endsFull
  | code shown => shown.endsFull

theorem Piece.length_pos (piece : Piece) : 0 < piece.text.length := by
  obtain ⟨front, a, b, shape, -⟩ := piece.endsFull
  rw [← String.length_toList, shape, List.length_append]
  exact Nat.add_pos_right _ Nat.two_pos

/-- Each piece has its place, behind those of the pieces in front of it. -/
theorem Shows.places {pieces : List Piece} {text : String} (h : Shows pieces text) :
    ∃ places : List (String × String),
      List.Forall₂ (fun piece place => text = place.1 ++ piece.text ++ place.2) pieces places ∧
        (places.Pairwise fun place later => place.1.length < later.1.length) ∧
        ∀ place ∈ places, place.1.length < text.length := by
  induction h with
  | nothing => exact ⟨[], .nil, .nil, List.forall_mem_nil _⟩
  | @last pieces front shown piece back ih =>
    obtain ⟨places, each, ordered, inside⟩ := ih
    let wider (place : String × String) := (place.1, place.2 ++ piece.text ++ back)
    have some := piece.length_pos
    refine ⟨places.map wider ++ [(front, back)], ?_, ?_, ?_⟩
    · refine List.rel_append (List.forall₂_map_right_iff.mpr (each.imp fun other place same => ?_))
        (.cons rfl .nil)
      rw [same]
      simp only [wider, String.append_assoc]
    · refine List.pairwise_append.mpr ⟨List.pairwise_map.mpr ordered, List.pairwise_singleton _ _,
        fun place member last only => ?_⟩
      obtain rfl := List.mem_singleton.mp only
      obtain ⟨earlier, listed, rfl⟩ := List.mem_map.mp member
      exact inside earlier listed
    · simp only [List.forall_mem_append, List.forall_mem_map, List.forall_mem_singleton,
        String.length_append]
      refine ⟨fun place member => ?_, by omega⟩
      have shorter := inside place member
      simp only [wider]
      omega

theorem Shows.dropEmptyEnd {pieces : List Piece} {text : String} (h : Shows pieces text) :
    Shows pieces (dropEmptyEnd text) := by
  cases h with
  | nothing => exact .nothing _
  | @last pieces front shown piece back =>
    have ends : EndsFull (front ++ piece.text) := piece.endsFull.before front
    obtain ⟨rest, kept⟩ := ends.dropEmptyEnd_append back
    rw [kept]
    exact .last shown piece rest

/-! ## Pages show their pieces -/

theorem shows_item (indent head : String) (description : Option String) :
    Shows (itemPiece indent head description)
      (indent ++ head ++ "\n" ++ itemParagraph indent description) := by
  cases description with
  | none => exact .nothing _
  | some text => exact .alone (.item ⟨indent, head, text⟩)

theorem shows_directives (front back : String) (uses : List DirectiveUse) :
    Shows (directivePiece uses)
      (if uses.isEmpty then ""
        else front ++ "*Directives*: `" ++ directiveList uses ++ ("`" ++ back)) := by
  unfold directivePiece
  split
  · exact .nothing _
  · have shown := ((Shows.alone (.code (.directives uses))).before front).behind back
    have split : "*Directives*: `" = "*Directives*: " ++ "`" := rfl
    rw [split]
    simpa only [Piece.text, Shown.text, Shown.label, Shown.code, String.append_assoc] using shown

theorem shows_directivesLine (uses : List DirectiveUse) :
    Shows (directivePiece uses) (directivesLine uses) := shows_directives "" "\n\n" uses

theorem shows_itemDirectives (uses : List DirectiveUse) :
    Shows (directivePiece uses) (itemDirectives uses) := shows_directives "\n\t" "\n" uses

theorem shows_default (indent : String) (default : Option Value) :
    Shows (defaultPiece default)
      (match default with
        | some value => "\n" ++ indent ++ "\t*Default Value*: `" ++ value.text ++ "`\n"
        | none => "") := by
  cases default with
  | none => exact .nothing _
  | some value =>
    have shown := ((Shows.alone (.code (.default value))).before ("\n" ++ indent ++ "\t")).behind
      "\n"
    have front : "\t*Default Value*: `" = "\t" ++ "*Default Value*: " ++ "`" := rfl
    have back : "`\n" = "`" ++ "\n" := rfl
    have piece : defaultPiece (some value) = [.code (.default value)] := rfl
    simp only [piece, front, back]
    simpa only [Piece.text, Shown.text, Shown.label, Shown.code, String.append_assoc] using shown

theorem typedHead_line (indent name : String) (ty : TypeRef) :
    indent ++ typedHead name ty ++ "\n" =
      indent ++ "- " ++ name ++ " **(" ++ typeLink ty ++ ")**\n" := by
  have split : ")**\n" = ")**" ++ "\n" := rfl
  rw [typedHead, split]
  simp only [String.append_assoc]

theorem shows_inputItem (indent : String) (input : InputValue) :
    Shows (inputPieces indent input) (inputItem indent input) := by
  have described := shows_item indent (typedHead input.name input.ty) input.description
  have shown := described.append (shows_default indent input.default)
  rwa [typedHead_line] at shown

theorem shows_inputItems (indent : String) (inputs : List InputValue) :
    Shows (inputs.flatMap (inputPieces indent)) (inputItems indent inputs) :=
  .join fun input _ => shows_inputItem indent input

theorem shows_fieldItem (field : Field) : Shows (fieldPieces field) (fieldItem field) := by
  have described := shows_item "" (typedHead field.name field.ty) field.description
  have args : Shows (field.args.flatMap (inputPieces "\t"))
      (if field.args.isEmpty then "" else "\n\t*Args*:\n" ++ inputItems "\t" field.args) := by
    split
    · next none =>
      rw [List.isEmpty_iff.mp none]
      exact .nothing _
    · exact (shows_inputItems "\t" field.args).before _
  have shown := (described.append args).append (shows_itemDirectives field.directives)
  rwa [typedHead_line, String.empty_append] at shown

theorem shows_enumItem (value : EnumValue) : Shows (enumPieces value) (enumItem value) := by
  have described := shows_item "" ("- " ++ value.name) value.description
  have shown := described.append (shows_itemDirectives value.directives)
  rwa [String.empty_append] at shown

theorem shows_kindBody (kind : TypeKind) : Shows (kindPieces kind) (kindBody kind) := by
  cases kind with
  | scalar | union => exact .nothing _
  | object interfaces fields | interface interfaces fields =>
    exact (Shows.join fun field _ => shows_fieldItem field).before _
  | enum values => exact .join fun value _ => shows_enumItem value
  | inputObject fields => exact shows_inputItems "" fields

theorem shows_entry (definition : Definition) :
    Shows (definitionPieces definition) (entry definition).body := by
  have type (declared : TypeDef) : Shows (directivePiece declared.directives ++
      kindPieces declared.kind) (typeEntry declared).body :=
    (((shows_directivesLine _).before _).append (shows_kindBody _)).dropEmptyEnd
  cases definition with
  | schema root => exact ((shows_directivesLine root.directives).before _).behind _
  | type declared => exact type declared
  | extend added => exact type added
  | directive declared =>
    have args := (shows_inputItems "" declared.args).before (paragraph declared.description)
    exact ((((args.behind _).behind _).behind _).behind _).behind _

theorem markdown_shows_pieces (doc : Document) (options : PageOptions) :
    Shows (pieces doc) (markdown doc options) := by
  rw [markdown_eq]
  refine Shows.before _ (Shows.join fun part _ => ?_)
  unfold sectionText
  rw [List.map_map]
  refine Shows.behind (Shows.before _ (Shows.join fun definition _ => ?_)) _
  exact (shows_entry definition).before _

end SchemaCompiler.Page
