import Mathlib.Data.List.DropRight
import SchemaCompiler.Proofs.Document.CanonicalReading
import SchemaCompiler.Proofs.Page.Pieces
import SchemaCompiler.Proofs.Page.Sections

/-!
Blank lines between headings.

Every section and every entry ends in a line feed of its own, so there is one blank line in front of
the next heading if the last line of the entry is not blank. A type that ends in a paragraph drops
the blank line of the paragraph. A schema does not, so a schema without operations has two blank
lines behind it.
-/

namespace SchemaCompiler.Page

open Commonmark

/-- Characters that a blank line may have, all of them white space. -/
structure Blanks where
  has : Char → Bool
  white : ∀ c, has c = true → Text.isBlank c = true

namespace Blanks

def isBlank (blanks : Blanks) (line : List Char) : Bool := line.all blanks.has

/-- A blank line has white space only. -/
def spaces : Blanks := ⟨Text.isBlank, fun _ => id⟩

/-- A blank line has nothing. -/
def nothing : Blanks := ⟨fun _ => false, fun _ => nofun⟩

end Blanks

variable (blanks : Blanks)

/-- The number of blank lines at the end of a text that ends its last line. -/
def blankLinesAtEnd (cs : List Char) : Nat :=
  ((Text.splitOnChar '\n' cs).dropLast.rtakeWhile blanks.isBlank).length

/-- The last line of the text is ended and not blank. -/
def EndsInLine (cs : List Char) : Prop :=
  ∃ front c rest, cs = front ++ c :: rest ++ ['\n'] ∧ blanks.has c = false ∧ '\n' ∉ c :: rest

variable {blanks}

theorem EndsInLine.before (front : List Char) {cs : List Char} (h : EndsInLine blanks cs) :
    EndsInLine blanks (front ++ cs) := by
  obtain ⟨start, c, rest, rfl, visible, plain⟩ := h
  exact ⟨front ++ start, c, rest, by simp only [List.append_assoc], visible, plain⟩

theorem blankLinesAtEnd_lineFeed (cs : List Char) :
    blankLinesAtEnd blanks (cs ++ ['\n'] ++ ['\n']) =
      blankLinesAtEnd blanks (cs ++ ['\n']) + 1 := by
  have lines (cs : List Char) :
      (Text.splitOnChar '\n' (cs ++ ['\n'])).dropLast = Text.splitOnChar '\n' cs := by
    rw [Text.splitOnChar_append]
    exact List.dropLast_concat
  rw [blankLinesAtEnd, blankLinesAtEnd, lines, lines, Text.splitOnChar_append]
  have last : Text.splitOnChar '\n' [] = [[]] := rfl
  rw [last, List.rtakeWhile_concat_pos _ _ _ rfl, List.length_append]
  rfl

theorem EndsInLine.blankLinesAtEnd_eq {cs : List Char} (h : EndsInLine blanks cs) :
    blankLinesAtEnd blanks cs = 0 := by
  obtain ⟨front, c, rest, rfl, visible, plain⟩ := h
  obtain ⟨pieces, start, split⟩ := Text.splitOnChar_append_plain plain front
  have some : ¬blanks.isBlank (start ++ c :: rest) = true := by simp [Blanks.isBlank, visible]
  have last : Text.splitOnChar '\n' [] = [[]] := rfl
  rw [blankLinesAtEnd, Text.splitOnChar_append, last, List.dropLast_concat, split,
    List.rtakeWhile_concat_neg _ _ _ some]
  rfl

/-- One blank line stands behind such a text. -/
theorem EndsInLine.blankLinesAtEnd_lineFeed {cs : List Char} (h : EndsInLine blanks cs) :
    blankLinesAtEnd blanks (cs ++ ['\n']) = 1 := by
  have none := h.blankLinesAtEnd_eq
  obtain ⟨front, c, rest, rfl, -⟩ := h
  rw [Page.blankLinesAtEnd_lineFeed, none]

/-! ## Texts of entries -/

variable (blanks) in
/-- The last line of the text is ended and not blank. -/
def Tight (text : String) : Prop := EndsInLine blanks text.toList

variable (blanks) in
/-- The text is empty, or its last line is ended and not blank. -/
def Full (text : String) : Prop := text = "" ∨ Tight blanks text

variable (blanks) in
/-- The text ends in one empty line. -/
def Loose (text : String) : Prop := ∃ front, text = front ++ "\n" ∧ Tight blanks front

theorem Tight.before (front : String) {text : String} (h : Tight blanks text) :
    Tight blanks (front ++ text) := by
  rw [Tight, String.toList_append]
  exact EndsInLine.before _ h

theorem Loose.before (front : String) {text : String} (h : Loose blanks text) :
    Loose blanks (front ++ text) := by
  obtain ⟨start, rfl, tight⟩ := h
  exact ⟨front ++ start, by rw [String.append_assoc], tight.before front⟩

theorem Tight.append {front back : String} (h : Tight blanks front) (h' : Full blanks back) :
    Tight blanks (front ++ back) := by
  rcases h' with rfl | tight
  · rwa [String.append_empty]
  · exact tight.before front

theorem Full.join {α : Type} {f : α → String} {items : List α}
    (each : ∀ item ∈ items, Tight blanks (f item)) : Full blanks (String.join (items.map f)) := by
  induction items with
  | nil => exact .inl rfl
  | cons item items ih =>
    obtain ⟨first, later⟩ := List.forall_mem_cons.mp each
    rw [List.map_cons, String.join_cons]
    exact .inr (first.append (ih later))

theorem Blanks.has_eq_false {c : Char} (visible : Text.isBlank c = false) :
    blanks.has c = false := by
  by_contra blank
  rw [Bool.not_eq_false] at blank
  rw [blanks.white c blank] at visible
  cases visible

theorem tight_of_last {text : String} {c : Char} {rest : List Char}
    (ends : text.toList.reverse = '\n' :: c :: rest) (visible : Text.isBlank c = false) :
    Tight blanks text := by
  refine ⟨rest.reverse, c, [], ?_, Blanks.has_eq_false visible, ?_⟩
  · rw [← List.reverse_reverse text.toList, ends]
    simp
  · intro ends
    obtain rfl := List.mem_singleton.mp ends
    cases visible

theorem tight_line {line : String} (plain : OneLine line)
    (visible : ∃ c ∈ line.toList, blanks.has c = false) : Tight blanks (line ++ "\n") := by
  obtain ⟨c, member, seen⟩ := visible
  obtain ⟨start, rest, split⟩ := List.append_of_mem member
  refine ⟨start, c, rest, by simp [split], seen, fun ends => plain ?_⟩
  rw [split]
  exact List.mem_append_right _ ends

/-- A line that begins with a mark. -/
theorem tight_marked {mark rest : String} {c : Char} {more : List Char}
    (begins : mark.toList = c :: more) (visible : Text.isBlank c = false) (plain : OneLine mark)
    (named : OneLine rest) : Tight blanks (mark ++ rest ++ "\n") := by
  refine tight_line (oneLine_append_iff.mpr ⟨plain, named⟩) ⟨c, ?_, Blanks.has_eq_false visible⟩
  rw [String.toList_append, begins]
  exact List.mem_cons_self

/-! ## Descriptions -/

variable (blanks) in
/-- The text has a line, and none of its lines is blank, the one behind the last line feed included.
So the text is not empty and does not end in a line feed. -/
def Unbroken (text : String) : Prop :=
  ∀ line ∈ Text.splitOnChar '\n' text.toList, blanks.isBlank line = false

theorem Unbroken.last {text : String} (h : Unbroken blanks text) :
    ∃ front line others, text = front ++ line ∧ Text.lines text = others ++ [line] ∧
      OneLine line ∧ ∃ c ∈ line.toList, blanks.has c = false := by
  obtain ⟨pieces, last, front, split, shape⟩ := Text.splitOnChar_last '\n' text.toList
  have member : last ∈ Text.splitOnChar '\n' text.toList := by simp [split]
  obtain ⟨c, inside, visible⟩ := List.all_eq_false.mp (h last member)
  obtain ⟨others, lines⟩ := Text.lines_last split (List.ne_nil_of_mem inside)
  refine ⟨String.ofList front, String.ofList last, others, ?_, lines, ?_, c, ?_, ?_⟩
  · rw [← String.ofList_append, ← shape, String.ofList_toList]
  · rw [OneLine, String.toList_ofList]
    exact Text.not_mem_of_mem_splitOnChar member
  · rwa [String.toList_ofList]
  · exact Bool.eq_false_iff.mpr visible

variable (blanks) in
/-- There is no description, or one without blank lines. -/
def Described (description : Option String) : Prop := ∀ text ∈ description, Unbroken blanks text

theorem loose_paragraph {text : String} (h : Unbroken blanks text) :
    Loose blanks (paragraph (some text)) := by
  obtain ⟨front, line, -, rfl, -, plain, visible⟩ := h.last
  have marks : "\n\n" = "\n" ++ "\n" := rfl
  refine ⟨front ++ (line ++ "\n"), ?_, (tight_line plain visible).before front⟩
  simp only [paragraph, marks, String.append_assoc]

theorem full_itemParagraph {indent : String} {description : Option String}
    (h : Described blanks description) : Full blanks (itemParagraph indent description) := by
  cases description with
  | none => exact .inl rfl
  | some text =>
    obtain ⟨-, line, others, -, lines, plain, visible⟩ := (h text rfl).last
    have shape : itemParagraph indent (some text) =
        "\n" ++ indent ++ tabbed "" others ++ "\t" ++ (line ++ "\n") := by
      obtain ⟨first, more, split⟩ := List.exists_cons_of_ne_nil (l := others ++ [line]) (by simp)
      rw [itemParagraph_eq (lines.trans split), ← split]
      simp [tabbed, String.append_assoc]
    rw [shape]
    exact .inr ((tight_line plain visible).before _)

/-! ## Items -/

theorem full_itemDirectives (uses : List DirectiveUse) : Full blanks (itemDirectives uses) := by
  rw [itemDirectives]
  split
  · exact .inl rfl
  · exact .inr ((tight_of_last rfl rfl).before _)

theorem tight_inputItem {indent : String} {input : InputValue}
    (described : Described blanks input.description) : Tight blanks (inputItem indent input) := by
  rw [inputItem]
  refine (((tight_of_last rfl rfl).before _).append (full_itemParagraph described)).append ?_
  split
  · exact .inr ((tight_of_last rfl rfl).before _)
  · exact .inl rfl

theorem full_inputItems {indent : String} {inputs : List InputValue}
    (described : ∀ input ∈ inputs, Described blanks input.description) :
    Full blanks (inputItems indent inputs) :=
  .join fun input member => tight_inputItem (described input member)

theorem tight_fieldItem {field : Field} (described : Described blanks field.description)
    (args : ∀ arg ∈ field.args, Described blanks arg.description) :
    Tight blanks (fieldItem field) := by
  rw [fieldItem]
  refine ((((tight_of_last rfl rfl).before _).append (full_itemParagraph described)).append
    ?_).append (full_itemDirectives _)
  split
  · exact .inl rfl
  · exact .inr ((tight_of_last rfl rfl).append (full_inputItems args))

theorem tight_enumItem {value : EnumValue} (named : OneLine value.name)
    (described : Described blanks value.description) : Tight blanks (enumItem value) := by
  have head : Tight blanks ("- " ++ value.name ++ "\n") :=
    tight_marked rfl rfl (by decide) named
  exact (head.append (full_itemParagraph described)).append (full_itemDirectives _)

/-! ## Entries -/

variable (blanks) in
/-- The text is empty, or one empty line may stand at its end. -/
def Settled (text : String) : Prop := Full blanks text ∨ Loose blanks text

theorem Settled.append {front back : String} (h : Settled blanks front)
    (h' : Settled blanks back) : Settled blanks (front ++ back) := by
  rcases h' with (rfl | tight) | loose
  · rwa [String.append_empty]
  · exact .inl (.inr (tight.before front))
  · exact .inr (loose.before front)

theorem Tight.dropEmptyEnd_eq {text : String} (h : Tight blanks text) :
    dropEmptyEnd text = text := by
  obtain ⟨front, c, rest, shape, -, plain⟩ := h
  obtain none | ⟨start, last, split⟩ := (c :: rest).eq_nil_or_concat
  · cases none
  rw [List.concat_eq_append] at split
  have ends : text.toList = front ++ start ++ [last, '\n'] := by
    rw [shape, split]
    simp only [List.append_assoc]
    rfl
  rw [Page.dropEmptyEnd_eq ends, if_neg]
  rintro ⟨rfl, -⟩
  exact plain (by simp [split])

theorem Tight.dropEmptyEnd_lineFeed {text : String} (h : Tight blanks text) :
    dropEmptyEnd (text ++ "\n") = text := by
  obtain ⟨front, c, rest, shape, -⟩ := h
  have ends : (text ++ "\n").toList = front ++ c :: rest ++ ['\n', '\n'] := by
    rw [String.toList_append, shape]
    simp
  rw [Page.dropEmptyEnd_eq ends, if_pos ⟨rfl, rfl⟩, ← shape, String.ofList_toList]

theorem Settled.dropEmptyEnd {text : String} (h : Settled blanks text) :
    Full blanks (dropEmptyEnd text) := by
  rcases h with (rfl | tight) | ⟨front, rfl, tight⟩
  · exact .inl rfl
  · rw [tight.dropEmptyEnd_eq]
    exact .inr tight
  · rw [tight.dropEmptyEnd_lineFeed]
    exact .inr tight

theorem loose_of_marks {back : String} {c : Char} {rest : List Char}
    (ends : back.toList.reverse = '\n' :: '\n' :: c :: rest) (visible : Text.isBlank c = false)
    (front : String) : Loose blanks (front ++ back) := by
  have shape : back = String.ofList (rest.reverse ++ [c, '\n']) ++ "\n" := by
    rw [← String.toList_inj, ← List.reverse_reverse back.toList, ends]
    simp
  have last : (String.ofList (rest.reverse ++ [c, '\n'])).toList.reverse = '\n' :: c :: rest := by
    simp
  exact Loose.before front ⟨_, shape, tight_of_last last visible⟩

theorem settled_paragraph {description : Option String} (h : Described blanks description) :
    Settled blanks (paragraph description) := by
  cases description with
  | none => exact .inl (.inl rfl)
  | some text => exact .inr (loose_paragraph (h text rfl))

theorem loose_directivesLine {uses : List DirectiveUse} (some : uses ≠ []) :
    Loose blanks (directivesLine uses) := by
  rw [directivesLine, if_neg (by simpa using some)]
  exact loose_of_marks rfl rfl _

theorem settled_directivesLine (uses : List DirectiveUse) :
    Settled blanks (directivesLine uses) := by
  by_cases none : uses = []
  · rw [none]
    exact .inl (.inl rfl)
  · exact .inr (loose_directivesLine none)

theorem tight_nameLink (name : String) : Tight blanks (nameLink name ++ "\n") := by
  rw [nameLink]
  split
  · next builtin =>
    have listed : name ∈ builtinScalars := List.contains_iff_mem.mp builtin
    simp only [builtinScalars, List.mem_cons, List.not_mem_nil, or_false] at listed
    rcases listed with rfl | rfl | rfl | rfl | rfl <;> exact tight_of_last rfl rfl
  · rw [String.append_assoc]
    exact (tight_of_last rfl rfl).before _

theorem tight_intercalate {separator : String} {texts : List String} (some : texts ≠ [])
    (each : ∀ text ∈ texts, Tight blanks (text ++ "\n")) :
    Tight blanks (String.intercalate separator texts ++ "\n") := by
  induction texts with
  | nil => exact absurd rfl some
  | cons text texts ih =>
    obtain ⟨first, later⟩ := List.forall_mem_cons.mp each
    cases texts with
    | nil => simpa using first
    | cons next texts =>
      rw [String.intercalate_cons_cons, String.append_assoc]
      exact (ih (List.cons_ne_nil _ _) later).before _

theorem settled_implementsLine (interfaces : List String) :
    Settled blanks (implementsLine interfaces) := by
  rw [implementsLine]
  split
  · exact .inl (.inl rfl)
  · next some =>
    have links : Tight blanks (String.intercalate ", " (interfaces.map nameLink) ++ "\n") := by
      refine tight_intercalate (by simpa using some) fun text member => ?_
      obtain ⟨name, -, rfl⟩ := List.mem_map.mp member
      exact tight_nameLink name
    have marks : "\n\n" = "\n" ++ "\n" := rfl
    refine .inr ⟨_, ?_, links.before "*Implements*: "⟩
    rw [marks, ← String.append_assoc, ← String.append_assoc]

/-! ### What ends the lines of a page -/

/-- What a definition, or a part of one that may be described, has as its description. -/
inductive DescriptionOf (doc : Document) : Option String → Prop where
  | schema {root : SchemaDef} (declared : .schema root ∈ doc.definitions) :
      DescriptionOf doc root.description
  | type {type : TypeDef} (declared : Declares doc type) : DescriptionOf doc type.description
  | field {field : Field} (declared : FieldOf doc field) : DescriptionOf doc field.description
  | enumValue {value : EnumValue} (declared : EnumValueOf doc value) :
      DescriptionOf doc value.description
  | input {indent : String} {input : InputValue} (declared : InputOf doc indent input) :
      DescriptionOf doc input.description
  | directive {directive : DirectiveDef} (declared : .directive directive ∈ doc.definitions) :
      DescriptionOf doc directive.description

/-- The names that end lines of a page have no line feed. -/
structure NamedInLines (doc : Document) : Prop where
  types : ∀ type, Declares doc type → OneLine type.name
  enumValues : ∀ value, EnumValueOf doc value → OneLine value.name
  locations : ∀ directive, .directive directive ∈ doc.definitions →
    ∀ location ∈ directive.locations, OneLine location

/-- So it is with the names of a document that was read. -/
theorem NamedInLines.of_wellFormed {doc : Document} (good : doc.WellFormed) : NamedInLines doc := by
  have type (type : TypeDef) (declared : Declares doc type) : type.WellFormed :=
    declared.elim (fun here => good _ here) fun here => (good _ here).1
  refine ⟨fun declared here => oneLine_name (type declared here).name, ?_, ?_⟩
  · rintro value ⟨declared, values, here, kind, member⟩
    have inside := (type declared here).kind
    rw [kind] at inside
    exact oneLine_name (inside value member).name
  · intro directive declared location member
    have plain : ∀ location ∈ Grammar.directiveLocations, OneLine location := by decide
    exact plain location ((good _ declared).locations location member)

variable {doc : Document} (named : NamedInLines doc)
  (described : ∀ description, DescriptionOf doc description → Described blanks description)

include named described in
theorem settled_kindBody {type : TypeDef} (declared : Declares doc type) :
    Settled blanks (kindBody type.kind) := by
  have fieldItems {fields : List Field} (here : type.fields = fields) :
      Full blanks (String.join (fields.map fieldItem)) := by
    refine .join fun field member => ?_
    have found : FieldOf doc field := ⟨type, declared, here ▸ member⟩
    exact tight_fieldItem (described _ (.field found))
      fun arg listed => described _ (.input (.fieldArgument found listed))
  cases kind : type.kind with
  | scalar => exact .inl (.inl rfl)
  | object interfaces fields | interface interfaces fields =>
    have here : type.fields = fields := by rw [TypeDef.fields, kind]
    exact (settled_implementsLine interfaces).append (.inl (fieldItems here))
  | union members =>
    refine .inl (.join fun member _ => ?_)
    rw [memberItem, String.append_assoc]
    exact (tight_nameLink member).before _
  | enum values =>
    refine .inl (.join fun value member => ?_)
    have found : EnumValueOf doc value := ⟨type, values, declared, kind, member⟩
    exact tight_enumItem (named.enumValues value found) (described _ (.enumValue found))
  | inputObject fields =>
    exact .inl (full_inputItems fun field member =>
      described _ (.input (.inputField declared kind member)))

/-- The heading and the body of an entry. -/
def entryText (entry : Entry) : String := "### " ++ entry.name ++ "\n" ++ entry.body

/-- A schema without operations, but with a description or directives. -/
def LeavesGap : Definition → Prop
  | .schema root => root.operations = [] ∧ (root.description ≠ none ∨ root.directives ≠ [])
  | _ => False

include named described in
theorem tight_typeEntry {type : TypeDef} (declared : Declares doc type) :
    Tight blanks (entryText (typeEntry type)) := by
  have head : Tight blanks ("### " ++ type.name ++ "\n") :=
    tight_marked rfl rfl (by decide) (named.types type declared)
  refine head.append (Settled.dropEmptyEnd ?_)
  exact ((settled_paragraph (described _ (.type declared))).append
    (settled_directivesLine _)).append (settled_kindBody named described declared)

/-- A schema without operations ends like a paragraph. -/
theorem schemaBody_of_nil {root : SchemaDef} (bare : root.operations = []) :
    (schemaEntry root).body = paragraph root.description ++ directivesLine root.directives := by
  rw [schemaEntry, bare]
  exact String.append_empty

theorem full_schemaBody {root : SchemaDef} (closed : ¬LeavesGap (.schema root)) :
    Full blanks (schemaEntry root).body := by
  cases operations : root.operations with
  | nil =>
    obtain ⟨text, directives⟩ : root.description = none ∧ root.directives = [] := by
      simpa [LeavesGap, operations, not_or] using closed
    rw [schemaBody_of_nil operations, text, directives]
    exact .inl rfl
  | cons first later =>
    have item (operation : OperationType) : Tight blanks (operationItem operation) :=
      (tight_of_last rfl rfl).before _
    rw [schemaEntry, operations, List.map_cons, String.join_cons]
    exact .inr (((item first).append (.join fun operation _ => item operation)).before _)

include described in
theorem loose_schemaBody {root : SchemaDef} (declared : .schema root ∈ doc.definitions)
    (gap : LeavesGap (.schema root)) : Loose blanks (schemaEntry root).body := by
  obtain ⟨bare, some⟩ := gap
  rw [schemaBody_of_nil bare]
  by_cases plain : root.directives = []
  · obtain ⟨text, given⟩ := Option.ne_none_iff_exists'.mp (some.resolve_right (absurd plain))
    have whole := loose_paragraph (described _ (.schema declared) text given)
    rw [plain, given]
    simpa [directivesLine] using whole
  · exact (loose_directivesLine plain).before _

include named in
theorem tight_directiveEntry {directive : DirectiveDef}
    (declared : .directive directive ∈ doc.definitions) :
    Tight blanks (entryText (directiveEntry directive)) := by
  have locations : OneLine (String.intercalate " | " directive.locations) :=
    OneLine.intercalate (by decide) (named.locations directive declared)
  have line : Tight blanks
      ("*Locations*: " ++ String.intercalate " | " directive.locations ++ "\n") :=
    tight_marked rfl rfl (by decide) locations
  have shown := line.before ("### " ++ directive.name ++ "\n" ++ paragraph directive.description ++
    inputItems "" directive.args ++ (if directive.args.isEmpty then "" else "\n") ++
    (if directive.repeatable then "*Repeatable*\n\n" else ""))
  simpa only [entryText, directiveEntry, String.append_assoc] using shown

include named described in
theorem tight_entry {definition : Definition} (declared : definition ∈ doc.definitions)
    (closed : ¬LeavesGap definition) : Tight blanks (entryText (entry definition)) := by
  cases definition with
  | schema root =>
    have head : Tight blanks "### schema\n" := tight_of_last rfl rfl
    exact head.append (full_schemaBody closed)
  | type type => exact tight_typeEntry named described (.inl declared)
  | extend type => exact tight_typeEntry named described (.inr declared)
  | directive directive => exact tight_directiveEntry named declared

include described in
theorem loose_entry {definition : Definition} (declared : definition ∈ doc.definitions)
    (gap : LeavesGap definition) : Loose blanks (entryText (entry definition)) := by
  cases definition with
  | schema root => exact (loose_schemaBody described declared gap).before _
  | type | extend | directive => exact gap.elim

/-! ## The page -/

/-- The headings below the title, each with the text up to the next one. -/
def headings (doc : Document) : List Part :=
  contentsPart (outline doc) :: (outline doc).flatMap sectionParts

/-- The page down to the end of some of them. -/
def above (doc : Document) (options : PageOptions) (parts : List Part) : List Char :=
  preface doc options ++ '\n' :: parts.flatMap Part.text

theorem markdown_eq_above {doc : Document} (options : PageOptions) {front back : List Part}
    (split : headings doc = front ++ back) :
    (markdown doc options).toList = above doc options front ++ back.flatMap Part.text := by
  have whole : (markdown doc options).toList = above doc options (headings doc) :=
    toList_markdown doc options
  rw [whole, split, above, above, List.flatMap_append]
  simp only [List.append_assoc, List.cons_append]

theorem entryPart_mem_headings {doc : Document} {definition : Definition}
    (declared : definition ∈ doc.definitions) : entryPart (entry definition) ∈ headings doc := by
  let kind := Section.ofDefinition definition
  have here : definition ∈ definitionsIn doc kind := List.mem_filter.mpr ⟨declared, by simp [kind]⟩
  have inside : entry definition ∈ (definitionsIn doc kind).map entry := List.mem_map_of_mem here
  have listed : (kind, (definitionsIn doc kind).map entry) ∈ outline doc := by
    refine List.mem_filter.mpr ⟨List.mem_map.mpr ⟨kind, mem_all kind, rfl⟩, ?_⟩
    simpa using List.ne_nil_of_mem here
  refine List.mem_cons_of_mem _ (List.mem_flatMap.mpr ⟨_, listed, List.mem_cons_of_mem _ ?_⟩)
  exact List.mem_map_of_mem inside

theorem entryPart_text (e : Entry) : (entryPart e).text = (entryText e).toList ++ ['\n'] := by
  simp [entryPart, entryText, Part.text, Part.headLine]

theorem sectionHead_text (kind : Section) :
    Part.text ⟨2, kind.heading.toList, []⟩ = ("## " ++ kind.heading ++ "\n").toList ++ ['\n'] := by
  simp [Part.text, Part.headLine]

theorem contentsPart_text (parts : List (Section × List Entry)) :
    (contentsPart parts).text =
      ("## Table of Contents\n" ++ String.join (parts.map contentsOf)).toList ++ ['\n'] := by
  rw [String.toList_append, toList_contents]
  simp [contentsPart, Part.text, Part.headLine]

theorem tight_contentsOf (part : Section × List Entry) : Tight blanks (contentsOf part) := by
  have head : Tight blanks
      ("- [" ++ part.1.heading ++ "](#" ++ anchor part.1.heading ++ ")\n") :=
    (tight_of_last rfl rfl).before _
  exact head.append (.join fun entry _ => (tight_of_last rfl rfl).before _)

include named described in
/-- Behind each heading, up to the next one, there is one blank line at the end, unless it is the
heading of a schema without operations. -/
theorem text_of_heading {part : Part} (member : part ∈ headings doc) :
    (∃ text, part.text = text.toList ++ ['\n'] ∧ Tight blanks text) ∨
      ∃ definition ∈ doc.definitions, LeavesGap definition ∧
        part = entryPart (entry definition) := by
  rcases List.mem_cons.mp member with rfl | inside
  · have head : Tight blanks "## Table of Contents\n" := tight_of_last rfl rfl
    exact .inl ⟨_, contentsPart_text _, head.append (.join fun part _ => tight_contentsOf part)⟩
  · obtain ⟨⟨kind, entries⟩, listed, inside⟩ := List.mem_flatMap.mp inside
    rcases List.mem_cons.mp inside with rfl | inside
    · have plain : OneLine kind.heading := by cases kind <;> decide
      exact .inl ⟨_, sectionHead_text kind, tight_marked rfl rfl (by decide) plain⟩
    · obtain ⟨e, listedEntry, rfl⟩ := List.mem_map.mp inside
      obtain ⟨definition, declared, rfl⟩ := (mem_outline listed).2 e listedEntry
      by_cases gap : LeavesGap definition
      · exact .inr ⟨definition, declared, gap, rfl⟩
      · exact .inl ⟨_, entryPart_text _, tight_entry named described declared gap⟩

theorem Loose.blankLinesAtEnd_eq {text : String} (h : Loose blanks text) (start : List Char) :
    blankLinesAtEnd blanks (start ++ (text.toList ++ ['\n'])) = 2 := by
  obtain ⟨front, rfl, tight⟩ := h
  have one := (EndsInLine.before start tight).blankLinesAtEnd_lineFeed
  have marks : start ++ ((front ++ "\n").toList ++ ['\n']) =
      start ++ front.toList ++ ['\n'] ++ ['\n'] := by simp
  rw [marks, blankLinesAtEnd_lineFeed, one]

theorem Tight.blankLinesAtEnd_eq {text : String} (h : Tight blanks text) (start : List Char) :
    blankLinesAtEnd blanks (start ++ (text.toList ++ ['\n'])) = 1 := by
  rw [← List.append_assoc]
  exact (EndsInLine.before start h).blankLinesAtEnd_lineFeed

theorem above_concat (options : PageOptions) (front : List Part) (part : Part) :
    above doc options (front ++ [part]) = above doc options front ++ part.text := by
  simp [above]

theorem blankLinesAtEnd_above_nil (options : PageOptions) :
    blankLinesAtEnd blanks (above doc options []) = 1 := by
  have tight : Tight blanks
      ("# " ++ options.title.getD doc.name ++ "\n*This was generated by sdlc.*\n") :=
    (tight_of_last rfl rfl).before _
  exact tight.blankLinesAtEnd_eq []

include named described in
theorem blankLinesAtEnd_heading {part : Part} (member : part ∈ headings doc) (start : List Char) :
    blankLinesAtEnd blanks (start ++ part.text) = 1 ∨
      blankLinesAtEnd blanks (start ++ part.text) = 2 ∧
        ∃ definition ∈ doc.definitions, LeavesGap definition := by
  rcases text_of_heading named described member with
    ⟨text, shape, tight⟩ | ⟨definition, declared, gap, rfl⟩
  · rw [shape]
    exact .inl (tight.blankLinesAtEnd_eq start)
  · rw [entryPart_text]
    exact .inr ⟨(loose_entry described declared gap).blankLinesAtEnd_eq start, _, declared, gap⟩

include named described in
theorem blankLinesAtEnd_above (options : PageOptions) {front back : List Part}
    (split : headings doc = front ++ back) :
    blankLinesAtEnd blanks (above doc options front) = 1 ∨
      blankLinesAtEnd blanks (above doc options front) = 2 ∧
        ∃ definition ∈ doc.definitions, LeavesGap definition := by
  obtain rfl | ⟨others, last, rfl⟩ := front.eq_nil_or_concat
  · exact .inl (blankLinesAtEnd_above_nil options)
  · rw [List.concat_eq_append] at split ⊢
    rw [above_concat]
    exact blankLinesAtEnd_heading named described (by simp [split]) _

/-- A page whose names stand in one line and whose descriptions have no blank lines has one or two
blank lines in front of each heading below the title and at its end. It has one everywhere if
no schema without operations has a description or directives. -/
theorem one_blank_line_iff (blanks : Blanks) (doc : Document) (options : PageOptions)
    (named : NamedInLines doc)
    (described : ∀ description, DescriptionOf doc description → Described blanks description) :
    (∀ front back, headings doc = front ++ back →
      (markdown doc options).toList = above doc options front ++ back.flatMap Part.text ∧
        (blankLinesAtEnd blanks (above doc options front) = 1 ∨
          blankLinesAtEnd blanks (above doc options front) = 2)) ∧
      ((∀ front back, headings doc = front ++ back →
          blankLinesAtEnd blanks (above doc options front) = 1) ↔
        ∀ definition ∈ doc.definitions, ¬LeavesGap definition) := by
  refine ⟨fun front back split => ⟨markdown_eq_above options split, ?_⟩, fun one => ?_,
    fun closed front back split => ?_⟩
  · exact (blankLinesAtEnd_above named described options split).imp_right And.left
  · intro definition declared gap
    obtain ⟨front, back, split⟩ := List.append_of_mem (entryPart_mem_headings declared)
    have here := one (front ++ [entryPart (entry definition)]) back (by simp [split])
    rw [above_concat, entryPart_text,
      (loose_entry described declared gap).blankLinesAtEnd_eq] at here
    exact absurd here (by decide)
  · refine (blankLinesAtEnd_above named described options split).resolve_right ?_
    rintro ⟨-, definition, declared, gap⟩
    exact closed definition declared gap

/-- A scalar with a description. -/
def describedScalar : TypeDef := ⟨"T", some "Time.", [], .scalar, ⟨1, 22⟩⟩

/-- A schema without operations in front of it. -/
def gapDocument : Document :=
  let root : SchemaDef := ⟨none, false, [⟨"d", [], ⟨1, 8⟩⟩], [], ⟨1, 1⟩⟩
  ⟨"test", "test.gql", [.schema root, .type describedScalar]⟩

theorem declares_gapDocument {type : TypeDef} (h : Declares gapDocument type) :
    type = describedScalar := by
  rcases h with declared | declared
  · simpa [gapDocument] using declared
  · simp [gapDocument] at declared

theorem unbroken_time : Unbroken blanks "Time." := by
  intro line member
  have only : Text.splitOnChar '\n' "Time.".toList = ["Time.".toList] := rfl
  rw [only] at member
  obtain rfl := List.mem_singleton.mp member
  have visible : blanks.has 'T' = false := Blanks.has_eq_false rfl
  exact List.all_eq_false.mpr ⟨'T', List.mem_cons_self, by simp [visible]⟩

theorem described_gapDocument {description : Option String}
    (h : DescriptionOf gapDocument description) : Described blanks description := by
  have bare {field : Field} : ¬FieldOf gapDocument field := by
    rintro ⟨type, declared, member⟩
    rw [declares_gapDocument declared] at member
    cases member
  cases h with
  | schema declared =>
    obtain rfl := by simpa [gapDocument] using declared
    rintro text ⟨⟩
  | type declared =>
    rw [declares_gapDocument declared]
    rintro text ⟨⟩
    exact unbroken_time
  | field declared => exact absurd declared bare
  | enumValue declared =>
    obtain ⟨type, values, declared, kind, -⟩ := declared
    rw [declares_gapDocument declared] at kind
    cases kind
  | input declared =>
    cases declared with
    | fieldArgument declared => exact absurd declared bare
    | inputField declared kind =>
      rw [declares_gapDocument declared] at kind
      cases kind
    | directiveArgument declared => simp [gapDocument] at declared
  | directive declared => simp [gapDocument] at declared

/-- The heading behind the schema has two lines in front of it that are blank, and even empty. -/
theorem two_blank_lines_behind_schema :
    Document.ofSource "test" "test.gql" "schema @d \x7b\x7d \"Time.\" scalar T" = .ok gapDocument ∧
      markdown gapDocument .default =
        "# test\n*This was generated by sdlc.*\n\n## Table of Contents\n- [Schema](#Schema)\n" ++
          "\t* [schema](#schema)\n- [Scalars](#Scalars)\n\t* [T](#T)\n\n## Schema\n\n" ++
          "### schema\n*Directives*: `@d`\n\n\n## Scalars\n\n### T\nTime.\n\n" ∧
      ∀ blanks ∈ [Blanks.spaces, Blanks.nothing], ∃ front back,
        headings gapDocument = front ++ back ∧
          blankLinesAtEnd blanks (above gapDocument .default front) = 2 := by
  have read : Document.ofSource "test" "test.gql"
      "schema @d \x7b\x7d \"Time.\" scalar T" = .ok gapDocument := by
    with_unfolding_all rfl
  have gap : LeavesGap (.schema ⟨none, false, [⟨"d", [], ⟨1, 8⟩⟩], [], ⟨1, 1⟩⟩) :=
    ⟨rfl, .inr (List.cons_ne_nil _ _)⟩
  refine ⟨read, by decide +kernel, fun blanks _ => ?_⟩
  have named : NamedInLines gapDocument := .of_wellFormed (Document.wellFormed_of_source read)
  obtain ⟨each, iff⟩ := one_blank_line_iff blanks gapDocument .default named
    fun _ => described_gapDocument
  by_contra never
  refine iff.mp (fun front back split => ?_) _ List.mem_cons_self gap
  exact (each front back split).2.resolve_right fun two => never ⟨front, back, split, two⟩

end SchemaCompiler.Page
