import SchemaCompiler.Page.Markdown
import SchemaCompiler.Proofs.Commonmark.Listing
import SchemaCompiler.Proofs.Document.Canonical

/-!
Pages as parts.

A page is its title, the table of contents and, for each section, a heading and the entries. Every
piece of an entry ends its last line, so the page reads part by part.
-/

namespace SchemaCompiler.Page

open Commonmark

/-! ## Texts that end their last line -/

/-- The text is empty or its last line is ended. -/
def Ended (text : String) : Prop := EndsLine text.toList

theorem Ended.empty : Ended "" := .inl rfl

theorem Ended.of_last {text : String} (ends : text.toList.getLast? = some '\n') : Ended text :=
  .inr (List.getLast?_eq_some_iff.mp ends)

theorem Ended.append {front back : String} (first : Ended front) (second : Ended back) :
    Ended (front ++ back) := by
  rw [Ended, String.toList_append]
  exact EndsLine.append first second

theorem Ended.behind (front : String) {back : String} (ends : back.toList.getLast? = some '\n') :
    Ended (front ++ back) := by
  obtain ⟨more, split⟩ := List.getLast?_eq_some_iff.mp ends
  exact .inr ⟨front.toList ++ more, by rw [String.toList_append, split, List.append_assoc]⟩

theorem Ended.join {texts : List String} (each : ∀ text ∈ texts, Ended text) :
    Ended (String.join texts) := by
  rw [Ended, String.toList_join]
  induction texts with
  | nil => exact .inl rfl
  | cons text texts ih =>
    rw [List.forall_mem_cons] at each
    rw [List.flatMap_cons]
    exact EndsLine.append each.1 (ih each.2)

theorem Ended.join_map {α : Type} {f : α → String} (each : ∀ a, Ended (f a)) (as : List α) :
    Ended (String.join (as.map f)) := by
  refine .join fun text member => ?_
  obtain ⟨a, -, rfl⟩ := List.mem_map.mp member
  exact each a

/-! ## Entries -/

theorem ended_paragraph (description : Option String) : Ended (paragraph description) := by
  cases description with
  | none => exact .empty
  | some text => exact .behind text rfl

theorem ended_itemParagraph (indent : String) (description : Option String) :
    Ended (itemParagraph indent description) := by
  cases description with
  | none => exact .empty
  | some text => exact .behind _ rfl

theorem ended_directivesLine (uses : List DirectiveUse) : Ended (directivesLine uses) := by
  rw [directivesLine]
  split
  · exact .empty
  · exact .behind _ rfl

theorem ended_itemDirectives (uses : List DirectiveUse) : Ended (itemDirectives uses) := by
  rw [itemDirectives]
  split
  · exact .empty
  · exact .behind _ rfl

theorem ended_inputItem (indent : String) (input : InputValue) :
    Ended (inputItem indent input) := by
  rw [inputItem]
  refine ((Ended.behind _ rfl).append (ended_itemParagraph _ _)).append ?_
  split
  · exact .behind _ rfl
  · exact .empty

theorem ended_inputItems (indent : String) (inputs : List InputValue) :
    Ended (inputItems indent inputs) := .join_map (ended_inputItem indent) inputs

theorem ended_fieldItem (field : Field) : Ended (fieldItem field) := by
  rw [fieldItem]
  refine (((Ended.behind _ rfl).append (ended_itemParagraph _ _)).append ?_).append
    (ended_itemDirectives _)
  split
  · exact .empty
  · exact (Ended.of_last rfl).append (ended_inputItems _ _)

theorem ended_enumItem (value : EnumValue) : Ended (enumItem value) :=
  ((Ended.behind _ rfl).append (ended_itemParagraph _ _)).append (ended_itemDirectives _)

theorem ended_kindBody (kind : TypeKind) : Ended (kindBody kind) := by
  have implements (interfaces : List String) : Ended (implementsLine interfaces) := by
    rw [implementsLine]
    split
    · exact .empty
    · exact .behind _ rfl
  cases kind with
  | scalar => exact .empty
  | object interfaces fields | interface interfaces fields =>
    exact (implements interfaces).append (.join_map ended_fieldItem fields)
  | union members => exact .join_map (fun member => .behind _ rfl) members
  | enum values => exact .join_map ended_enumItem values
  | inputObject fields => exact ended_inputItems "" fields

theorem Ended.dropEmptyEnd {text : String} (h : Ended text) : Ended (dropEmptyEnd text) := by
  rw [Page.dropEmptyEnd]
  split
  · rw [Ended, String.toList_ofList, List.reverse_cons]
    exact .inr ⟨_, rfl⟩
  · exact h

theorem ended_body (definition : Definition) : Ended (entry definition).body := by
  have type (t : TypeDef) : Ended (typeEntry t).body :=
    (((ended_paragraph _).append (ended_directivesLine _)).append (ended_kindBody _)).dropEmptyEnd
  cases definition with
  | schema s =>
    exact ((ended_paragraph _).append (ended_directivesLine _)).append
      (.join_map (fun operation => .behind _ rfl) _)
  | type t => exact type t
  | extend t => exact type t
  | directive d => exact .behind _ rfl

/-! ## Names of entries -/

/-- The names of the entries of a page. -/
def HasNames (parts : List (Section × List Entry)) : Prop :=
  ∀ part ∈ parts, ∀ entry ∈ part.2, IsName entry.name

theorem isName_entry {definition : Definition} (h : definition.WellFormed) :
    IsName (entry definition).name := by
  cases definition with
  | schema => exact (by decide : IsName "schema")
  | type => exact h.name
  | extend => exact h.1.name
  | directive => exact h.name

theorem mem_outline {doc : Document} {part : Section × List Entry} (member : part ∈ outline doc) :
    part.2 ≠ [] ∧ ∀ e ∈ part.2, ∃ definition ∈ doc.definitions, entry definition = e := by
  obtain ⟨here, some⟩ := List.mem_filter.mp member
  obtain ⟨kind, -, rfl⟩ := List.mem_map.mp here
  refine ⟨by simpa using some, fun e inside => ?_⟩
  obtain ⟨definition, found, rfl⟩ := List.mem_map.mp inside
  exact ⟨definition, (List.mem_filter.mp found).1, rfl⟩

theorem hasNames_outline {doc : Document} (h : doc.WellFormed) : HasNames (outline doc) := by
  intro part member e inside
  obtain ⟨definition, declared, rfl⟩ := (mem_outline member).2 e inside
  exact isName_entry (h definition declared)

/-! ## The page in parts -/

/-- The text in front of the table of contents. -/
def preface (doc : Document) (options : PageOptions) : List Char :=
  ("# " ++ options.title.getD doc.name ++ "\n*This was generated by sdlc.*\n").toList

theorem endsLine_preface (doc : Document) (options : PageOptions) :
    EndsLine (preface doc options) := Ended.behind _ rfl

def entryPart (entry : Entry) : Part := ⟨3, entry.name.toList, entry.body.toList⟩

def sectionParts (part : Section × List Entry) : List Part :=
  ⟨2, part.1.heading.toList, []⟩ :: part.2.map entryPart

/-- The links of a section and its entries. -/
def linkGroup (part : Section × List Entry) : LinkGroup where
  text := fragmentLink part.1.heading.toList (anchor part.1.heading).toList
  items := part.2.map fun entry => fragmentLink entry.name.toList (anchor entry.name).toList

/-- The text of the table of contents. -/
def contentsText (parts : List (Section × List Entry)) : List Char :=
  ended ((parts.map linkGroup).flatMap LinkGroup.lines)

def contentsPart (parts : List (Section × List Entry)) : Part :=
  ⟨2, "Table of Contents".toList, contentsText parts⟩

theorem toList_contentsOf (part : Section × List Entry) :
    (contentsOf part).toList = ended (linkGroup part).lines := by
  simp [contentsOf, ended, linkGroup, LinkGroup.lines, LinkGroup.textLine, LinkGroup.itemLine,
    fragmentLink, String.toList_join, List.flatMap_map]

theorem toList_sectionText (part : Section × List Entry) :
    (sectionText part).toList = (sectionParts part).flatMap Part.text := by
  obtain ⟨kind, entries⟩ := part
  -- the empty line at the end of an entry stands in front of the heading of the next one
  have shifted : (entries.flatMap fun entry =>
        '\n' :: ("### ".toList ++ entry.name.toList ++ '\n' :: entry.body.toList)) ++ ['\n'] =
      '\n' :: entries.flatMap fun entry => (entryPart entry).text := by
    induction entries with
    | nil => rfl
    | cons entry entries ih =>
      rw [List.flatMap_cons, List.append_assoc, ih, List.flatMap_cons]
      simp [entryPart, Part.text, Part.headLine]
  have front : (sectionText (kind, entries)).toList =
      "## ".toList ++ kind.heading.toList ++ '\n' :: ((entries.flatMap fun entry =>
        '\n' :: ("### ".toList ++ entry.name.toList ++ '\n' :: entry.body.toList)) ++ ['\n']) := by
    simp [sectionText, String.toList_join, List.flatMap_map]
  rw [front, shifted]
  simp [sectionParts, Part.text, Part.headLine, List.flatMap_map]

theorem toList_contents (parts : List (Section × List Entry)) :
    (String.join (parts.map contentsOf)).toList = contentsText parts := by
  simp only [String.toList_join, List.flatMap_map, toList_contentsOf, contentsText, ended,
    List.flatMap_assoc]

theorem toList_markdown (doc : Document) (options : PageOptions) :
    (markdown doc options).toList = preface doc options ++
      '\n' :: (contentsPart (outline doc) :: (outline doc).flatMap sectionParts).flatMap
        Part.text := by
  have sections : (String.join ((outline doc).map sectionText)).toList =
      ((outline doc).flatMap sectionParts).flatMap Part.text := by
    simp only [String.toList_join, List.flatMap_map, toList_sectionText, List.flatMap_assoc]
  simp only [markdown, String.toList_append, toList_contents, sections]
  simp [preface, contentsPart, Part.text, Part.headLine]

/-! ## Reading the parts -/

theorem isHeadingText_name {name : String} (h : IsName name) : IsHeadingText name.toList := by
  have space {c : Char} (good : Lexer.isNameContinue c = true) : isSpace c = false := by
    rw [Bool.eq_false_iff]
    intro blank
    rw [isSpace, Bool.or_eq_true, beq_iff_eq, beq_iff_eq] at blank
    rcases blank with rfl | rfl <;> exact absurd good (by decide)
  obtain ⟨nonempty, chars⟩ := chars_of_nameSpelling h
  have last := chars _ (List.getLast_mem nonempty)
  have unmarked : name.toList.getLast nonempty ≠ '#' := fun mark => by
    rw [mark] at last
    exact absurd last (by decide)
  exact ⟨fun c first => space (chars c (List.mem_of_head? first)),
    ⟨_, List.getLast?_eq_some_getLast nonempty, space last, unmarked⟩, not_isLineEnd_name h⟩

theorem isHeadingText_section (kind : Section) : IsHeadingText kind.heading.toList where
  first := by cases kind <;> rintro c ⟨⟩ <;> rfl
  last := by cases kind <;> exact ⟨_, rfl, rfl, by decide⟩
  line := by cases kind <;> simp [Section.heading, IsLineEnd]

theorem whole_section (kind : Section) : Part.Whole ⟨2, kind.heading.toList, []⟩ where
  level := ⟨Nat.le_of_ble_eq_true rfl, Nat.le_of_ble_eq_true rfl⟩
  heading := isHeadingText_section kind
  body := .inl rfl
  closed := rfl

theorem whole_entryPart {entry : Entry} (name : IsName entry.name) (ended : Ended entry.body)
    (closed : leavesOpen entry.body.toList = false) : (entryPart entry).Whole where
  level := ⟨Nat.le_of_ble_eq_true rfl, Nat.le_of_ble_eq_true rfl⟩
  heading := isHeadingText_name name
  body := ended
  closed := closed

theorem anchor_of_chars {text : String} (h : ∀ c ∈ text.toList, Lexer.isNameContinue c = true) :
    anchor text = text := by
  have spaceless : text.toList.map (fun c => if c = ' ' then '-' else c) = text.toList := by
    refine (List.map_congr_left fun c member => if_neg fun space => ?_).trans (List.map_id _)
    have good := h c member
    rw [space] at good
    exact absurd good (by decide)
  rw [anchor, spaceless, String.ofList_toList]

theorem anchor_name {name : String} (h : IsName name) : anchor name = name :=
  anchor_of_chars (chars_of_nameSpelling h).2

theorem whole_linkGroup {part : Section × List Entry} (names : ∀ e ∈ part.2, IsName e.name)
    (some : part.2 ≠ []) : (linkGroup part).Whole where
  text := by
    refine isItemText_fragmentLink ?_ ?_
    · cases part.1 <;> simp [IsPlainLabel, Section.heading]
    · cases part.1 <;> simp [Section.heading, anchor, IsLineEnd]
  items := by
    intro item member
    obtain ⟨e, inside, rfl⟩ := List.mem_map.mp member
    have name := names e inside
    rw [anchor_name name]
    refine isItemText_fragmentLink (plainLabel_name name) fun c member => ?_
    exact not_isLineEnd_name name c ((List.mem_append.mp member).elim id id)
  some := fun none => some (List.map_eq_nil_iff.mp none)

theorem whole_contentsPart {parts : List (Section × List Entry)} (names : HasNames parts)
    (some : ∀ part ∈ parts, part.2 ≠ []) : (contentsPart parts).Whole where
  level := ⟨Nat.le_of_ble_eq_true rfl, Nat.le_of_ble_eq_true rfl⟩
  heading := ⟨by rintro c ⟨⟩; rfl, ⟨_, rfl, rfl, by decide⟩, by simp [contentsPart, IsLineEnd]⟩
  body := endsLine_ended _
  closed := by
    refine (readBlocks_linkGroups fun g member => ?_).2
    obtain ⟨part, inside, rfl⟩ := List.mem_map.mp member
    exact whole_linkGroup (names part inside) (some part inside)

end SchemaCompiler.Page
