import Mathlib.Data.List.Basic
import SchemaCompiler.Page.Html
import SchemaCompiler.Proofs.Document.CanonicalReading
import SchemaCompiler.Proofs.Page.Sections

/-!
The table of contents of HTML pages.

The links of the table go to the anchors of headings, and every heading carries the anchor of the
text that is left of it once its markup is read. The headings of sections lose nothing. A name
loses the underscores that frame it, so the link to its entry goes nowhere.
-/

namespace SchemaCompiler.Page

open Commonmark

/-! ## What pages are made of -/

def linkHtml (target : String) (content : List Char) : List Char :=
  "<a href=\"".toList ++ ('#' :: target.toList) ++ "\">".toList ++ content ++ "</a>".toList

/-- A name as markup. -/
def nameHtml (name : String) : List Char := inlinesToHtml (readInlines [] name.toList)

/-- The mark that the heading of an entry carries. -/
def entryMark (name : String) : String := String.ofList (unframed name.toList)

def entryLink (entry : Entry) : List Char :=
  "<li>".toList ++ linkHtml (anchor entry.name) (nameHtml entry.name) ++ "</li>\n".toList

def sectionLinks (part : Section × List Entry) : List Char :=
  "<li>".toList ++ linkHtml (anchor part.1.heading) part.1.heading.toList ++
    "\n<ul>\n".toList ++ part.2.flatMap entryLink ++ "</ul>\n</li>\n".toList

/-- The table of contents. -/
def contentsHtml (parts : List (Section × List Entry)) : List Char :=
  if parts = [] then [] else "<ul>\n".toList ++ parts.flatMap sectionLinks ++ "</ul>\n".toList

/-- What the page says when its definitions and anchors are known. -/
def context (doc : Document) (options : PageOptions) : Context where
  definitions := (readBlocks (markdown doc options).toList).2
  headingId := fun text => (anchor (String.ofList text)).toList

/-- A text on a page. -/
def bodyHtml (context : Context) (text : List Char) : List Char :=
  blocksToHtml context (readBlocks (text ++ ['\n'])).1

def entryHtml (context : Context) (entry : Entry) : List Char :=
  headingHtml 3 (entryMark entry.name).toList (nameHtml entry.name) ++
    bodyHtml context entry.body.toList

def sectionHtml (context : Context) (part : Section × List Entry) : List Char :=
  headingHtml 2 (anchor part.1.heading).toList part.1.heading.toList ++
    part.2.flatMap (entryHtml context)

/-! ## Characters that stand for themselves -/

theorem flatMap_singleton_eq {f : Char → List Char} {cs : List Char} (h : ∀ c ∈ cs, f c = [c]) :
    cs.flatMap f = cs := (List.flatMap_congr h).trans (List.flatMap_singleton' cs)

/-- A character of an anchor. -/
def IsMarkChar (c : Char) : Prop := isAlphanumeric c = true ∨ c = '_' ∨ c = '-'

theorem isMarkChar_of_all {cs : List Char}
    (h : cs.all (fun c => isAlphanumeric c || c == '-') = true) : ∀ c ∈ cs, IsMarkChar c := by
  intro c member
  have good := List.all_eq_true.mp h c member
  rw [Bool.or_eq_true, beq_iff_eq] at good
  exact good.imp_right .inr

theorem isMarkChar_name {c : Char} (h : Lexer.isNameContinue c = true) : IsMarkChar c :=
  (isNameContinue_cases h).elim (fun mark => .inr (.inl mark)) .inl

theorem isMarkChar_anchor (kind : Section) : ∀ c ∈ (anchor kind.heading).toList, IsMarkChar c := by
  refine isMarkChar_of_all ?_
  rw [anchor, String.toList_ofList]
  cases kind <;> decide

theorem escapeAttribute_mark {c : Char} (h : IsMarkChar c) : escapeAttribute c = [c] := by
  have other {d : Char} (letter : isAlphanumeric d = false) (mark : d ≠ '_') (dash : d ≠ '-') :
      c ≠ d := by
    rintro rfl
    rcases h with h | h | h
    · exact Bool.false_ne_true (letter.symm.trans h)
    · exact mark h
    · exact dash h
  rw [escapeAttribute, if_neg (other rfl (by decide) (by decide)),
    if_neg (other rfl (by decide) (by decide)), escapeText,
    if_neg (other rfl (by decide) (by decide)), if_neg (other rfl (by decide) (by decide)),
    if_neg (other rfl (by decide) (by decide))]

theorem escapeAddress_mark {c : Char} (h : IsMarkChar c) : escapeAddress c = [c] := by
  have plain : isAddressChar c = true := by
    rw [isAddressChar, Bool.or_eq_true]
    rcases h with letter | rfl | rfl
    · exact .inl letter
    · exact .inr (by decide)
    · exact .inr (by decide)
  rw [escapeAddress, if_pos plain]

/-! ## Headings -/

variable (doc : Document) (options : PageOptions)

/-- A heading carries the anchor of the text that is left of it. -/
theorem heading_html (level : Nat) {text : List Char} {inlines : List Inline}
    (reads : ∀ definitions, readInlines definitions text = inlines) {mark : String}
    (marked : anchor (String.ofList (plainTexts inlines)) = mark)
    (plain : ∀ c ∈ mark.toList, IsMarkChar c) :
    blocksToHtml (context doc options) [.heading level text] =
      headingHtml level mark.toList (inlinesToHtml inlines) := by
  have anchored : (context doc options).headingId =
      fun text => (anchor (String.ofList text)).toList := by rw [context]
  have escaped : mark.toList.flatMap escapeAttribute = mark.toList :=
    flatMap_singleton_eq fun c member => escapeAttribute_mark (plain c member)
  rw [blocksToHtml_heading, reads, anchored]
  dsimp only
  rw [marked, escaped]

theorem entryHeading_html {name : String} (h : IsName name) :
    blocksToHtml (context doc options) [.heading 3 name.toList] =
      headingHtml 3 (entryMark name).toList (nameHtml name) := by
  have inside : ∀ c ∈ (entryMark name).toList, Lexer.isNameContinue c = true := by
    rw [entryMark, String.toList_ofList]
    exact fun c member =>
      (chars_of_nameSpelling h).2 c (List.mem_of_mem_drop (List.mem_of_mem_take member))
  have marked : anchor (String.ofList (plainTexts (readInlines [] name.toList))) =
      entryMark name := by
    rw [plainTexts_name h]
    exact anchor_of_chars inside
  exact heading_html doc options 3 (readsAs_name h).readInlines_eq marked
    fun c member => isMarkChar_name (inside c member)

def headingInlines : Section → List Inline
  | .inputObjects => [.text "Input".toList, .text [' '], .text "Objects".toList]
  | kind => [.text kind.heading.toList]

theorem headingInlines_texts (kind : Section) :
    plainTexts (headingInlines kind) = kind.heading.toList := by
  cases kind <;> rfl

theorem headingInlines_html (kind : Section) :
    inlinesToHtml (headingInlines kind) = kind.heading.toList := by
  cases kind <;> rfl

theorem readInlines_section (definitions : List LinkDefinition) (kind : Section) :
    readInlines definitions kind.heading.toList = headingInlines kind := by
  cases kind <;> rfl

theorem sectionHeading_html (kind : Section) :
    blocksToHtml (context doc options) [.heading 2 kind.heading.toList] =
      headingHtml 2 (anchor kind.heading).toList kind.heading.toList := by
  have marked : anchor (String.ofList (plainTexts (headingInlines kind))) =
      anchor kind.heading := by
    rw [headingInlines_texts, String.ofList_toList]
  rw [heading_html doc options 2 (fun definitions => readInlines_section definitions kind) marked
    (isMarkChar_anchor kind), headingInlines_html]

/-! ## Links -/

theorem inlinesToHtml_link {target : String} (inlines : List Inline)
    (plain : ∀ c ∈ target.toList, IsMarkChar c) :
    inlinesToHtml [.link ('#' :: target.toList) [] inlines] =
      linkHtml target (inlinesToHtml inlines) := by
  have escaped : target.toList.flatMap escapeAddress = target.toList :=
    flatMap_singleton_eq fun c member => escapeAddress_mark (plain c member)
  have mark : ('#' :: target.toList).flatMap escapeAddress = '#' :: target.toList := by
    rw [List.flatMap_cons, escaped]
    rfl
  have written : inlinesToHtml [.link ('#' :: target.toList) [] inlines] =
      "<a href=\"".toList ++ ('#' :: target.toList).flatMap escapeAddress ++ ['"'] ++ [] ++ ['>'] ++
        inlinesToHtml inlines ++ "</a>".toList ++ [] := rfl
  change _ = "<a href=\"".toList ++ ('#' :: target.toList) ++ "\">".toList ++
    inlinesToHtml inlines ++ "</a>".toList
  rw [written, mark]
  simp only [List.append_assoc, List.append_nil]
  rfl

theorem nameLink_html {name : String} (h : IsName name) (context : Context) :
    textHtml context (fragmentLink name.toList (anchor name).toList) =
      linkHtml (anchor name) (nameHtml name) := by
  have plain : ∀ c ∈ name.toList, IsMarkChar c := fun c member =>
    isMarkChar_name ((chars_of_nameSpelling h).2 c member)
  rw [anchor_name h, textHtml,
    readInlines_fragmentLink (readsAs_name h) (plainDestination_name h), inlinesToHtml_link _ plain]
  rfl

theorem sectionLink_html (kind : Section) (context : Context) :
    textHtml context (fragmentLink kind.heading.toList (anchor kind.heading).toList) =
      linkHtml (anchor kind.heading) kind.heading.toList := by
  have reads (definitions : List LinkDefinition) :
      readInlines definitions (fragmentLink kind.heading.toList (anchor kind.heading).toList) =
        [.link ('#' :: (anchor kind.heading).toList) [] (headingInlines kind)] := by
    cases kind <;> rfl
  rw [textHtml, reads, inlinesToHtml_link _ (isMarkChar_anchor kind), headingInlines_html]

theorem linkGroup_html {part : Section × List Entry} (names : ∀ e ∈ part.2, IsName e.name)
    (context : Context) : (linkGroup part).html context = sectionLinks part := by
  have each : ∀ e ∈ part.2, itemHtml context
      (fragmentLink e.name.toList (anchor e.name).toList) = entryLink e := by
    intro e inside
    change "<li>".toList ++ textHtml context _ ++ "</li>\n".toList = entryLink e
    rw [nameLink_html (names e inside)]
    rfl
  have items : (linkGroup part).items.flatMap (itemHtml context) = part.2.flatMap entryLink := by
    rw [linkGroup, List.flatMap_map, List.flatMap_congr each]
  change "<li>".toList ++ textHtml context (fragmentLink _ _) ++ "\n<ul>\n".toList ++
    (linkGroup part).items.flatMap (itemHtml context) ++ "</ul>\n</li>\n".toList = _
  rw [items, sectionLink_html]
  rfl

theorem getLast?_linkHtml (target : String) (content : List Char) :
    (linkHtml target content).getLast? = some '>' := List.getLast?_append.trans rfl

theorem contents_html {parts : List (Section × List Entry)} (names : HasNames parts)
    (some : ∀ part ∈ parts, part.2 ≠ []) (context : Context) :
    bodyHtml context (contentsText parts) = contentsHtml parts := by
  have good : ∀ g ∈ parts.map linkGroup, g.Whole := by
    intro g member
    obtain ⟨part, inside, rfl⟩ := List.mem_map.mp member
    exact whole_linkGroup (names part inside) (some part inside)
  rw [bodyHtml, contentsText, (readBlocks_linkGroups good).1]
  by_cases none : parts = []
  · subst none
    rfl
  have groups : parts.map linkGroup ≠ [] := fun nil => none (List.map_eq_nil_iff.mp nil)
  have ends : ∀ g ∈ parts.map linkGroup,
      (textHtml context g.text).getLast? = .some '>' := by
    intro g member
    obtain ⟨part, -, rfl⟩ := List.mem_map.mp member
    change (textHtml context (fragmentLink _ _)).getLast? = _
    rw [sectionLink_html]
    exact getLast?_linkHtml _ _
  have each : ∀ part ∈ parts, (linkGroup part).html context = sectionLinks part :=
    fun part inside => linkGroup_html (names part inside) context
  have all : (parts.map linkGroup).flatMap (LinkGroup.html context) =
      parts.flatMap sectionLinks := by
    rw [List.flatMap_map, List.flatMap_congr each]
  rw [if_neg groups, blocksToHtml_linkGroups context ends, all, contentsHtml, if_neg none]

/-! ## The page -/

theorem isWhole_partBlocks (p : Part) : ∀ block ∈ p.blocks, block.IsWhole := by
  rw [Part.blocks, List.forall_mem_cons]
  exact ⟨trivial, isWhole_of_mem_readBlocks _⟩

/-- A part of a page. -/
def partHtml (context : Context) (p : Part) : List Char :=
  blocksToHtml context [.heading p.level p.heading] ++ bodyHtml context p.body

theorem blocksToHtml_parts (context : Context) (parts : List Part) :
    blocksToHtml context (parts.flatMap Part.blocks) =
      parts.flatMap (partHtml context) := by
  induction parts with
  | nil => rfl
  | cons p parts ih =>
    have split : p.blocks = [.heading p.level p.heading] ++ (readBlocks (p.body ++ ['\n'])).1 := rfl
    rw [List.flatMap_cons, List.flatMap_cons, blocksToHtml_append context (isWhole_partBlocks p),
      ih, split, blocksToHtml_append context (by simp [Block.IsWhole])]
    rfl

theorem section_html {part : Section × List Entry} (names : ∀ e ∈ part.2, IsName e.name) :
    (sectionParts part).flatMap (partHtml (context doc options)) =
      sectionHtml (context doc options) part := by
  have entries : (part.2.map entryPart).flatMap (partHtml (context doc options)) =
      part.2.flatMap (entryHtml (context doc options)) := by
    rw [List.flatMap_map]
    refine List.flatMap_congr fun e inside => ?_
    have split : partHtml (context doc options) (entryPart e) =
        blocksToHtml (context doc options) [.heading 3 e.name.toList] ++
          bodyHtml (context doc options) e.body.toList := rfl
    rw [split, entryHeading_html doc options (names e inside), entryHtml]
  have heading : partHtml (context doc options) ⟨2, part.1.heading.toList, []⟩ =
      headingHtml 2 (anchor part.1.heading).toList part.1.heading.toList := by
    have empty : bodyHtml (context doc options) [] = [] := rfl
    rw [partHtml, sectionHeading_html, empty, List.append_nil]
  rw [sectionParts, List.flatMap_cons, entries, heading, sectionHtml]

theorem toHtml_eq (headingId : List Char → List Char) (cs : List Char) :
    toHtml headingId cs = blocksToHtml ⟨(readBlocks cs).2, headingId⟩ (readBlocks cs).1 := rfl

theorem contentsHeading_html :
    blocksToHtml (context doc options) [.heading 2 "Table of Contents".toList] =
      headingHtml 2 "Table-of-Contents".toList "Table of Contents".toList := by
  have reads (definitions : List LinkDefinition) :
      readInlines definitions "Table of Contents".toList =
        [.text "Table".toList, .text [' '], .text "of".toList, .text [' '],
          .text "Contents".toList] := rfl
  have plain : ∀ c ∈ "Table-of-Contents".toList, IsMarkChar c := isMarkChar_of_all (by decide)
  exact heading_html doc options 2 reads (by decide) plain

/-- The HTML page: the text in front, the table of contents, and the sections. -/
theorem html_eq {doc : Document} (good : doc.WellFormed) (options : PageOptions)
    (prefaceClosed : leavesOpen (preface doc options) = false)
    (closed : ∀ part ∈ outline doc, ∀ e ∈ part.2, leavesOpen e.body.toList = false) :
    (html doc options).toList =
      bodyHtml (context doc options) (preface doc options) ++
        (headingHtml 2 "Table-of-Contents".toList "Table of Contents".toList ++
          contentsHtml (outline doc)) ++
        (outline doc).flatMap (sectionHtml (context doc options)) := by
  have names := hasNames_outline good
  have some : ∀ part ∈ outline doc, part.2 ≠ [] := fun part member => (mem_outline member).1
  have whole : ∀ p ∈ contentsPart (outline doc) :: (outline doc).flatMap sectionParts,
      p.Whole := by
    rw [List.forall_mem_cons]
    refine ⟨whole_contentsPart names some, fun p member => ?_⟩
    obtain ⟨part, here, inside⟩ := List.mem_flatMap.mp member
    rcases List.mem_cons.mp inside with rfl | inside
    · exact whole_section part.1
    · obtain ⟨e, listed, rfl⟩ := List.mem_map.mp inside
      obtain ⟨definition, -, same⟩ := (mem_outline here).2 e listed
      exact whole_entryPart (names part here e listed) (same ▸ ended_body definition)
        (closed part here e listed)
  have blocks : (readBlocks (markdown doc options).toList).1 =
      (readBlocks (preface doc options ++ ['\n'])).1 ++
        (contentsPart (outline doc) :: (outline doc).flatMap sectionParts).flatMap Part.blocks := by
    rw [toList_markdown, readBlocks_parts (endsLine_preface doc options) prefaceClosed whole]
  have sections : ((outline doc).flatMap sectionParts).flatMap (partHtml (context doc options)) =
      (outline doc).flatMap (sectionHtml (context doc options)) := by
    rw [List.flatMap_assoc]
    exact List.flatMap_congr fun part here => section_html doc options (names part here)
  have contents : partHtml (context doc options) (contentsPart (outline doc)) =
      headingHtml 2 "Table-of-Contents".toList "Table of Contents".toList ++
        contentsHtml (outline doc) := by
    have split : partHtml (context doc options) (contentsPart (outline doc)) =
        blocksToHtml (context doc options) [.heading 2 "Table of Contents".toList] ++
          bodyHtml (context doc options) (contentsText (outline doc)) := rfl
    rw [split, contentsHeading_html, contents_html names some]
  rw [html, String.toList_ofList, toHtml_eq]
  change blocksToHtml (context doc options) (readBlocks (markdown doc options).toList).1 = _
  rw [blocks, blocksToHtml_append _ (isWhole_of_mem_readBlocks _), blocksToHtml_parts,
    List.flatMap_cons, sections, contents, ← List.append_assoc, bodyHtml]

theorem anchor_eq_entryMark_iff {name : String} (h : IsName name) :
    anchor name = entryMark name ↔ ¬ IsFramed name.toList := by
  rw [anchor_name h, ← unframed_eq_self_iff, entryMark, ← String.toList_inj, String.toList_ofList,
    eq_comm]

/-- What the HTML page of a document says, unless the text in front or the text of an entry leaves
code or HTML open behind it: the links of the table of contents go to the anchors of the headings of
sections and of the names of entries, in this order. A section's heading carries the anchor that
its link goes to, and the heading of an entry does just if no underscores frame the name. -/
theorem contents_links_resolve_iff {name path source : String} {doc : Document}
    (read : Document.ofSource name path source = .ok doc) {options : PageOptions}
    (asHtml : options.html = true) (prefaceClosed : leavesOpen (preface doc options) = false)
    (closed : ∀ part ∈ outline doc, ∀ e ∈ part.2, leavesOpen e.body.toList = false) :
    (page doc options).toList =
        bodyHtml (context doc options) (preface doc options) ++
          (headingHtml 2 "Table-of-Contents".toList "Table of Contents".toList ++
            contentsHtml (outline doc)) ++
          (outline doc).flatMap (sectionHtml (context doc options)) ∧
      ∀ part ∈ outline doc, ∀ e ∈ part.2,
        (anchor e.name = entryMark e.name ↔ ¬ IsFramed e.name.toList) := by
  have good := Document.wellFormed_of_source read
  refine ⟨?_, fun part here e listed => ?_⟩
  · rw [page, if_pos asHtml]
    exact html_eq good options prefaceClosed closed
  · exact anchor_eq_entryMark_iff (hasNames_outline good part here e listed)

/-- A document with a type between double underscores. -/
def framedType : Document :=
  let field : Field := ⟨"x", none, [], .named "Int", [], ⟨1, 14⟩⟩
  ⟨"test", "test.gql", [.type ⟨"__A__", none, [], .object [] [field], ⟨1, 1⟩⟩]⟩

/-- Its link goes to `__A__`, and its heading carries `A`. -/
theorem framed_type_unlinked :
    Document.ofSource "test" "test.gql" "type __A__ { x: Int }" = .ok framedType ∧
      ∃ e, outline framedType = [(.objects, [e])] ∧
        (page framedType ⟨none, true⟩).toList =
          bodyHtml (context framedType ⟨none, true⟩) (preface framedType ⟨none, true⟩) ++
            (headingHtml 2 "Table-of-Contents".toList "Table of Contents".toList ++
              contentsHtml [(.objects, [e])]) ++
            sectionHtml (context framedType ⟨none, true⟩) (.objects, [e]) ∧
        anchor e.name = "__A__" ∧ entryMark e.name = "A" ∧ anchor e.name ≠ entryMark e.name := by
  have read : Document.ofSource "test" "test.gql" "type __A__ { x: Int }" = .ok framedType := by
    with_unfolding_all rfl
  have outlined : outline framedType = [(.objects, [⟨"__A__", "- x **(Int)**\n"⟩])] := by
    decide +kernel
  have asHtml : (⟨none, true⟩ : PageOptions).html = true := rfl
  obtain ⟨written, marks⟩ := contents_links_resolve_iff read asHtml (by decide +kernel)
    (by decide +kernel)
  have framed : IsFramed "__A__".toList := ⟨rfl, rfl, 'A', by decide, by decide⟩
  rw [outlined] at written marks
  refine ⟨read, _, outlined, by rwa [List.flatMap_singleton] at written, by decide, by decide, ?_⟩
  exact fun same => (marks _ List.mem_cons_self _ List.mem_cons_self).mp same framed

end SchemaCompiler.Page
