import SchemaCompiler.Document.Grammar
import SchemaCompiler.Proofs.Page.Pieces

/-!
Code on a page.

A page shows default values and applied directives between two ticks. What a reader of the page
takes for the code ends at the first tick behind the opening one, so it is the whole constant just
if no name, spelling or string in the constant has a tick. A string may have one, and is shown
without an escape.
-/

namespace SchemaCompiler

/-! ## Ticks in constants -/

/-- The text has a tick, which would end the code that shows it. -/
def Ticked (text : String) : Prop := '`' ∈ text.toList

instance (text : String) : Decidable (Ticked text) :=
  inferInstanceAs (Decidable ('`' ∈ text.toList))

theorem ticked_append_iff {front back : String} :
    Ticked (front ++ back) ↔ Ticked front ∨ Ticked back := by
  rw [Ticked, String.toList_append, List.mem_append]
  rfl

theorem ticked_listed_iff {front back : String} (opened : ¬Ticked front) (closed : ¬Ticked back)
    (texts : List String) :
    Ticked (front ++ String.intercalate ", " texts ++ back) ↔ ∃ text ∈ texts, Ticked text := by
  have separator : ¬Ticked ", " := by decide
  have inside : Ticked (String.intercalate ", " texts) ↔ ∃ text ∈ texts, Ticked text :=
    Text.mem_intercalate_iff separator texts
  rw [ticked_append_iff, ticked_append_iff, inside]
  simp only [opened, closed, false_or, or_false]

theorem ticked_quoted_iff (value : String) : Ticked (Value.quoted value) ↔ Ticked value := by
  have each (c : Char) : '`' ∈ (Value.escapedChar c).toList ↔ c = '`' := by
    unfold Value.escapedChar
    repeat' split
    all_goals simp_all [Char.toString, eq_comm]
  rw [Ticked, toList_quoted, Lexer.escaped]
  simp [each, Ticked]

theorem ticked_entry_iff (name value : String) :
    Ticked (name ++ ": " ++ value) ↔ Ticked name ∨ Ticked value := by
  have separator : ¬Ticked ": " := by decide
  rw [ticked_append_iff, ticked_append_iff]
  simp only [separator, or_false]

theorem exists_ticked_append_iff {texts others : List String} :
    (∃ text ∈ texts ++ others, Ticked text) ↔
      (∃ text ∈ texts, Ticked text) ∨ ∃ text ∈ others, Ticked text := by
  simp only [List.mem_append, or_and_right, exists_or]

namespace Value

mutual

/-- The texts that a constant is made of: spellings of numbers, contents of strings, and names. -/
def leaves : Value → List String
  | int spelling | float spelling => [spelling]
  | string value => [value]
  | boolean _ | null => []
  | enum name => [name]
  | list items => itemLeaves items
  | object entries => entryLeaves entries

def itemLeaves : List Value → List String
  | [] => []
  | item :: items => item.leaves ++ itemLeaves items

def entryLeaves : List (String × Value) → List String
  | [] => []
  | (name, value) :: entries => name :: value.leaves ++ entryLeaves entries

end

mutual

theorem ticked_text_iff : (value : Value) →
    (Ticked value.text ↔ ∃ leaf ∈ value.leaves, Ticked leaf)
  | .int spelling | .float spelling => by simp [text, leaves]
  | .string value => by simp [text, leaves, ticked_quoted_iff]
  | .boolean true | .boolean false | .null => by
    simp only [leaves, List.not_mem_nil, false_and, exists_false, iff_false]
    decide
  | .enum name => by simp [text, leaves]
  | .list items => by
    rw [text, ticked_listed_iff (by decide) (by decide), ticked_itemTexts_iff items, leaves]
  | .object entries => by
    rw [text, ticked_listed_iff (by decide) (by decide), ticked_entryTexts_iff entries, leaves]

theorem ticked_itemTexts_iff : (items : List Value) →
    ((∃ text ∈ itemTexts items, Ticked text) ↔ ∃ leaf ∈ itemLeaves items, Ticked leaf)
  | [] => by simp [itemTexts, itemLeaves]
  | item :: items => by
    rw [itemTexts, itemLeaves, List.exists_mem_cons_iff, exists_ticked_append_iff,
      ticked_text_iff item, ticked_itemTexts_iff items]

theorem ticked_entryTexts_iff : (entries : List (String × Value)) →
    ((∃ text ∈ entryTexts entries, Ticked text) ↔ ∃ leaf ∈ entryLeaves entries, Ticked leaf)
  | [] => by simp [entryTexts, entryLeaves]
  | (name, value) :: entries => by
    rw [entryTexts, entryLeaves, List.exists_mem_cons_iff, exists_ticked_append_iff,
      List.exists_mem_cons_iff, ticked_entry_iff, ticked_text_iff value,
      ticked_entryTexts_iff entries]

end

end Value

def Argument.leaves (arg : Argument) : List String := arg.name :: arg.value.leaves

theorem Argument.ticked_text_iff (arg : Argument) :
    Ticked arg.text ↔ ∃ leaf ∈ arg.leaves, Ticked leaf := by
  rw [text, leaves, ticked_entry_iff, List.exists_mem_cons_iff, arg.value.ticked_text_iff]

def DirectiveUse.leaves (use : DirectiveUse) : List String :=
  use.name :: use.args.flatMap Argument.leaves

theorem exists_ticked_flatMap_iff {α : Type} {text : α → String} {leaves : α → List String}
    (each : ∀ item, Ticked (text item) ↔ ∃ leaf ∈ leaves item, Ticked leaf) (items : List α) :
    (∃ shown ∈ items.map text, Ticked shown) ↔ ∃ leaf ∈ items.flatMap leaves, Ticked leaf := by
  induction items with
  | nil => simp
  | cons item items ih =>
    rw [List.map_cons, List.flatMap_cons, List.exists_mem_cons_iff, exists_ticked_append_iff,
      each, ih]

theorem DirectiveUse.ticked_text_iff (use : DirectiveUse) :
    Ticked use.text ↔ ∃ leaf ∈ use.leaves, Ticked leaf := by
  obtain ⟨name, args, place⟩ := use
  have sign : ¬Ticked "@" := by decide
  have named : Ticked ("@" ++ name) ↔ Ticked name := by
    rw [ticked_append_iff]
    simp only [sign, false_or]
  rw [leaves, List.exists_mem_cons_iff, ← exists_ticked_flatMap_iff Argument.ticked_text_iff]
  cases args with
  | nil => simp [text, named]
  | cons first others =>
    have split : text ⟨name, first :: others, place⟩ = "@" ++ name ++
        ("(" ++ String.intercalate ", " ((first :: others).map Argument.text) ++ ")") := by
      simp only [text, String.append_assoc]
    rw [split, ticked_append_iff, named, ticked_listed_iff (by decide) (by decide)]

namespace Page

/-! ## Code between ticks -/

namespace Shown

/-- The texts that the code is made of. -/
def leaves : Shown → List String
  | default value => value.leaves
  | directives uses => uses.flatMap DirectiveUse.leaves

theorem ticked_code_iff : (shown : Shown) → (Ticked shown.code ↔ ∃ leaf ∈ shown.leaves, Ticked leaf)
  | default value => value.ticked_text_iff
  | directives uses => by
    have separator : ¬Ticked " " := by decide
    rw [code, directiveList, leaves, ← exists_ticked_flatMap_iff DirectiveUse.ticked_text_iff]
    exact Text.mem_intercalate_iff separator _

end Shown

/-- What stands in front of the first tick. -/
def upToTick (text : String) : String := String.ofList (text.toList.takeWhile (· ≠ '`'))

theorem upToTick_eq_iff {text word : String} :
    upToTick text = word ↔ ¬Ticked word ∧ (text = word ∨ ∃ rest, text = word ++ ("`" ++ rest)) := by
  rw [upToTick, ← String.toList_inj, String.toList_ofList, Text.takeWhile_ne_eq_iff]
  refine and_congr Iff.rfl (or_congr String.toList_inj ⟨?_, ?_⟩)
  · rintro ⟨rest, same⟩
    exact ⟨String.ofList rest, String.toList_inj.mp (by simpa using same)⟩
  · rintro ⟨rest, rfl⟩
    exact ⟨rest.toList, by simp⟩

/-- Only the first tick counts, whatever stands behind it. -/
theorem upToTick_behind (text rest : String) : upToTick (text ++ "`" ++ rest) = upToTick text := by
  refine upToTick_eq_iff.mpr ?_
  obtain ⟨plain, whole | ⟨more, shape⟩⟩ := upToTick_eq_iff.mp (rfl : upToTick text = _)
  · exact ⟨plain, .inr ⟨rest, by rw [← whole, String.append_assoc]⟩⟩
  · refine ⟨plain, .inr ⟨more ++ ("`" ++ rest), ?_⟩⟩
    calc text ++ "`" ++ rest
      _ = upToTick text ++ ("`" ++ more) ++ "`" ++ rest := by rw [← shape]
      _ = upToTick text ++ ("`" ++ (more ++ ("`" ++ rest))) := by simp only [String.append_assoc]

theorem upToTick_eq_self_iff {text : String} : upToTick text = text ↔ ¬Ticked text := by
  rw [upToTick_eq_iff]
  exact and_iff_left (.inl rfl)

namespace Shown

variable {shown : Shown} {page front behind opened : String}

/-- What is read as the code behind the opening tick. -/
theorem upToTick_opened (stands : page = front ++ shown.text ++ behind)
    (opens : page = front ++ shown.label ++ "`" ++ opened) :
    upToTick opened = upToTick shown.code := by
  have rest : opened = shown.code ++ "`" ++ behind := by
    rw [opens, text] at stands
    simpa only [String.append_assoc, String.append_right_inj] using stands
  rw [rest, upToTick_behind]

/-- It is all of the code if no name, spelling or string in it has a tick. -/
theorem upToTick_opened_eq_iff (stands : page = front ++ shown.text ++ behind)
    (opens : page = front ++ shown.label ++ "`" ++ opened) :
    upToTick opened = shown.code ↔ ∀ leaf ∈ shown.leaves, ¬Ticked leaf := by
  rw [upToTick_opened stands opens, upToTick_eq_self_iff, shown.ticked_code_iff]
  simp only [not_exists, not_and]

end Shown

/-- The default values and lists of applied directives on a page, in its order. -/
def shownCode (doc : Document) : List Shown := (pieces doc).filterMap Piece.code?

theorem mem_shownCode {doc : Document} {shown : Shown} :
    shown ∈ shownCode doc ↔ PieceOf doc (.code shown) :=
  mem_filterMap_pieces Piece.code?_eq_some_iff

theorem markdown_shows_code (doc : Document) (options : PageOptions) :
    Shows ((shownCode doc).map .code) (markdown doc options) :=
  (markdown_shows_pieces doc options).filterMap Piece.code?_eq_some_iff

/-- A page shows each default value and each list of applied directives of its document between two
ticks, in the order of its sections. What a reader takes for the code, up to the first tick, is all
of it just if no name, spelling or string in it has a tick. -/
theorem code_between_ticks_iff (doc : Document) (options : PageOptions) :
    (∀ shown, shown ∈ shownCode doc ↔ PieceOf doc (.code shown)) ∧
      ∃ places : List (String × String),
        (places.Pairwise fun place later => place.1.length < later.1.length) ∧
        List.Forall₂ (fun shown place =>
          markdown doc options = place.1 ++ shown.text ++ place.2 ∧
            ∀ opened, markdown doc options = place.1 ++ shown.label ++ "`" ++ opened →
              upToTick opened = upToTick shown.code ∧
              (upToTick opened = shown.code ↔ ∀ leaf ∈ shown.leaves, ¬Ticked leaf))
          (shownCode doc) places := by
  obtain ⟨places, each, ordered, -⟩ := (markdown_shows_code doc options).places
  refine ⟨fun shown => mem_shownCode, places, ordered, ?_⟩
  exact (List.forall₂_map_left_iff.mp each).imp fun shown place stands =>
    ⟨stands, fun opened opens => ⟨Shown.upToTick_opened stands opens,
      Shown.upToTick_opened_eq_iff stands opens⟩⟩

/-- An input field whose default value has a tick. -/
def tickedField : InputValue := ⟨"f", none, .named "String", some (.string "x`y"), [], ⟨1, 11⟩⟩

def tickedDocument : Document :=
  ⟨"test", "test.gql", [.type ⟨"I", none, [], .inputObject [tickedField], ⟨1, 1⟩⟩]⟩

/-- The code ends inside the string. -/
theorem tick_in_string_ends_code :
    Document.ofSource "test" "test.gql" "input I \x7b f: String = \"x`y\" \x7d" =
        .ok tickedDocument ∧
      ∃ front opened, markdown tickedDocument .default =
          front ++ "*Default Value*: " ++ "`" ++ opened ∧
        upToTick opened = "\"x" ∧ (Value.string "x`y").text = "\"x`y\"" := by
  have read : Document.ofSource "test" "test.gql"
      "input I \x7b f: String = \"x`y\" \x7d" = .ok tickedDocument := by
    with_unfolding_all rfl
  obtain ⟨-, places, -, each⟩ := code_between_ticks_iff tickedDocument .default
  have only : shownCode tickedDocument = [.default (.string "x`y")] := rfl
  rw [only, List.forall₂_cons_left_iff] at each
  obtain ⟨place, -, ⟨stands, reads⟩, -⟩ := each
  have opens : markdown tickedDocument .default = place.1 ++ "*Default Value*: " ++ "`" ++
      ((Value.string "x`y").text ++ "`" ++ place.2) := by
    simpa only [Shown.text, Shown.label, Shown.code, String.append_assoc] using stands
  refine ⟨read, place.1, _, opens, ?_, by decide +kernel⟩
  rw [(reads _ opens).1]
  decide +kernel

end Page

end SchemaCompiler
