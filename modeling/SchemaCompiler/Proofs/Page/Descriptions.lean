import SchemaCompiler.Document.Grammar
import SchemaCompiler.Proofs.Page.Pieces

/-!
Descriptions inside lists.

On a page the description of a field, an argument, an input field or an enum value stands behind the
line of its entry. Its first line is indented by one tab more than the entry, but the others by one
tab whatever the entry. So a description leaves its entry if the entry is an argument of a field and
the description has a second line.
-/

namespace SchemaCompiler.Page

/-- The described entries in the lists of a page, in the order of the page. -/
def describedItems (doc : Document) : List DescribedItem := (pieces doc).filterMap Piece.item?

namespace DescribedItem

def lines (item : DescribedItem) : List String := Text.lines item.description

def headLine (item : DescribedItem) : String := item.indent ++ item.head ++ "\n"

/-- The lines of the description follow the entry, each indented by one tab more than the entry. -/
def StaysInside (item : DescribedItem) : Prop :=
  ∃ rest, item.text = item.headLine ++ "\n" ++ tabbed item.indent item.lines ++ rest

theorem text_eq {item : DescribedItem} (some : item.lines ≠ []) :
    item.text = item.headLine ++ "\n" ++ item.indent ++ tabbed "" item.lines := by
  obtain ⟨line, lines, shape⟩ := List.exists_cons_of_ne_nil some
  rw [text, itemParagraph_eq shape, shape, headLine]
  simp only [String.append_assoc]

theorem text_of_nil {item : DescribedItem} (none : item.lines = []) :
    item.text = item.headLine ++ "\n" ++ item.indent ++ "\t\n" := by
  rw [text, itemParagraph_empty none, headLine]
  simp only [String.append_assoc]

theorem staysInside_of_flush {item : DescribedItem} (flush : item.indent = "") :
    item.StaysInside := by
  by_cases none : item.lines = []
  · exact ⟨"\t\n", by rw [text_of_nil none, none, flush]; rfl⟩
  · exact ⟨"", by rw [text_eq none, flush, String.append_empty, String.append_empty]⟩

theorem staysInside_of_short {item : DescribedItem} (short : item.lines.length ≤ 1) :
    item.StaysInside := by
  match shape : item.lines, short with
  | [], _ =>
    refine ⟨item.indent ++ "\t\n", ?_⟩
    rw [text_of_nil shape, shape, tabbed_nil]
    simp only [String.append_assoc, String.append_empty]
  | [line], _ =>
    refine ⟨"", ?_⟩
    rw [text_eq (by simp [shape]), shape, tabbed_cons, tabbed_cons, tabbed_nil, tabbed_nil]
    simp only [String.append_assoc, String.empty_append]

/-- A line is not the same line behind one more tab. -/
theorem line_ne_tabbed {line : String} (plain : '\n' ∉ line.toList) (rest rest' : String) :
    line ++ "\n" ++ rest ≠ "\t" ++ line ++ "\n" ++ rest' := by
  intro same
  have chars : line.toList ++ '\n' :: rest.toList =
      '\t' :: line.toList ++ '\n' :: rest'.toList := by
    simpa using congrArg String.toList same
  have first : (line.toList ++ '\n' :: rest.toList).takeWhile (· ≠ '\n') = line.toList :=
    Text.takeWhile_ne_eq_iff.mpr ⟨plain, .inr ⟨_, rfl⟩⟩
  have second : ('\t' :: line.toList ++ '\n' :: rest'.toList).takeWhile (· ≠ '\n') =
      '\t' :: line.toList := Text.takeWhile_ne_eq_iff.mpr ⟨by simp [plain], .inr ⟨_, rfl⟩⟩
  rw [chars, second] at first
  exact absurd (congrArg List.length first) (by simp)

theorem short_of_staysInside {item : DescribedItem} (nested : item.indent = "\t")
    (inside : item.StaysInside) : item.lines.length ≤ 1 := by
  obtain ⟨rest, same⟩ := inside
  match shape : item.lines with
  | [] => exact Nat.zero_le 1
  | [line] => exact Nat.le_refl 1
  | line :: second :: lines =>
    have member : second ∈ item.lines := by simp [shape]
    have plain : '\n' ∉ second.toList := Text.lineFeed_not_mem_lines member
    rw [text_eq (by simp [shape]), shape, nested] at same
    simp only [tabbed_cons, String.append_assoc, String.append_right_inj,
      String.empty_append] at same
    refine absurd ?_ (line_ne_tabbed plain (tabbed "" lines) (tabbed "\t" lines ++ rest))
    simpa only [String.append_assoc] using same

end DescribedItem

/-! ## The entries of a page -/

theorem mem_describedItems {doc : Document} {item : DescribedItem} :
    item ∈ describedItems doc ↔ PieceOf doc (.item item) :=
  mem_filterMap_pieces Piece.item?_eq_some_iff

/-- Only the arguments of fields are indented. -/
theorem PieceOf.indent {doc : Document} {item : DescribedItem} (h : PieceOf doc (.item item)) :
    item.indent = "" ∨ item.indent = "\t" := by
  cases h with
  | field | enumValue => exact .inl rfl
  | input declared =>
    cases declared with
    | fieldArgument => exact .inr rfl
    | inputField | directiveArgument => exact .inl rfl

theorem markdown_shows_describedItems (doc : Document) (options : PageOptions) :
    Shows ((describedItems doc).map .item) (markdown doc options) :=
  (markdown_shows_pieces doc options).filterMap Piece.item?_eq_some_iff

/-- A page shows the described fields, arguments, input fields and enum values of its document in
the order of its sections. Behind the line of an entry and an empty line, the indentation of the
entry stands once, in front of lines that have a tab each: those of the description. So all of them
are indented by one tab more than the entry unless there are several and the entry is itself
indented, as the arguments of fields are. -/
theorem descriptions_inside_iff (doc : Document) (options : PageOptions) :
    Shows ((describedItems doc).map .item) (markdown doc options) ∧
      (∀ item, item ∈ describedItems doc ↔ PieceOf doc (.item item)) ∧
      ∀ item ∈ describedItems doc,
        (item.lines ≠ [] →
          item.text = item.headLine ++ "\n" ++ item.indent ++ tabbed "" item.lines) ∧
        (item.StaysInside ↔ item.indent = "" ∨ item.lines.length ≤ 1) := by
  refine ⟨markdown_shows_describedItems doc options, fun item => mem_describedItems,
    fun item member => ⟨DescribedItem.text_eq, fun inside => ?_, fun h => ?_⟩⟩
  · exact (mem_describedItems.mp member).indent.imp_right
      fun nested => DescribedItem.short_of_staysInside nested inside
  · exact h.elim DescribedItem.staysInside_of_flush DescribedItem.staysInside_of_short

/-- An argument with two lines of description. -/
def describedArgument : InputValue := ⟨"x", some "a\nb", .named "Int", none, [], ⟨1, 19⟩⟩

def argumentDocument : Document :=
  let field : Field := ⟨"f", none, [describedArgument], .named "Int", [], ⟨1, 10⟩⟩
  ⟨"test", "test.gql", [.type ⟨"A", none, [], .object [] [field], ⟨1, 1⟩⟩]⟩

theorem describedArgument_declared : InputOf argumentDocument "\t" describedArgument :=
  .fieldArgument ⟨_, .inl List.mem_cons_self, List.mem_cons_self⟩ List.mem_cons_self

/-- The second line is indented like the argument and not like the first line. -/
theorem second_line_leaves_argument :
    Document.ofSource "test" "test.gql" "type A \x7b f(\"a\\nb\" x: Int): Int \x7d" =
        .ok argumentDocument ∧
      markdown argumentDocument .default =
        "# test\n*This was generated by sdlc.*\n\n## Table of Contents\n- [Objects](#Objects)\n" ++
          "\t* [A](#A)\n\n## Objects\n\n### A\n- f **(Int)**\n\n\t*Args*:\n" ++
          "\t- x **(Int)**\n\n\t\ta\n\tb\n\n" ∧
      ∃ item ∈ describedItems argumentDocument, item.lines = ["a", "b"] ∧
        item.text = "\t- x **(Int)**\n\n\t\ta\n\tb\n" ∧ ¬ item.StaysInside := by
  have read : Document.ofSource "test" "test.gql"
      "type A \x7b f(\"a\\nb\" x: Int): Int \x7d" = .ok argumentDocument := by
    with_unfolding_all rfl
  obtain ⟨-, mem, each⟩ := descriptions_inside_iff argumentDocument .default
  have member := (mem _).mpr (.input describedArgument_declared rfl)
  have lines : DescribedItem.lines ⟨"\t", typedHead describedArgument.name describedArgument.ty,
      "a\nb"⟩ = ["a", "b"] := by decide +kernel
  refine ⟨read, by decide +kernel, _, member, lines, by decide +kernel, ?_⟩
  rw [(each _ member).2, lines]
  exact fun flush => flush.elim (by decide) (by decide)

end SchemaCompiler.Page
