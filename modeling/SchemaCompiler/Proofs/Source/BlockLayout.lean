import SchemaCompiler.Proofs.Source.Cutting
import SchemaCompiler.Proofs.Text.Pieces

/-!
Laid-out block strings.

Lines that begin and end with some text, one of them at the margin, can be laid out as a block
string: on lines of their own, below one indentation, with their groups of three quotes marked. The
block string has the lines as its value again, whatever the line ends.
-/

namespace SchemaCompiler

namespace BlockString

/-- Groups of three quotes, the leftmost first, each behind a backslash. -/
def escapeQuotes : List Char → List Char
  | [] => []
  | '"' :: '"' :: '"' :: rest => '\\' :: '"' :: '"' :: '"' :: escapeQuotes rest
  | c :: rest => c :: escapeQuotes rest

/-- The ways to end a line. -/
def lineEndings : List (List Char) := [['\n'], ['\r', '\n'], ['\r']]

/-- The lines between three quotes, each behind the indentation and with its own line end. -/
def layOut (indent closing lineEnd : List Char) (lines : List (List Char)) : List Char :=
  Lexer.threeQuotes ++ (lineEnd ++
    (lines.flatMap (fun line => indent ++ escapeQuotes line ++ lineEnd) ++
      (closing ++ Lexer.threeQuotes)))

/-- Lines whose layout can be told from that of the source around them. -/
structure HoldsItsLayout (lines : List (List Char)) : Prop where
  nonempty : lines ≠ []
  plain : ∀ line ∈ lines, '\n' ∉ line ∧ '\r' ∉ line
  first : ∀ line, lines.head? = some line → isBlankLine line = false
  last : ∀ line, lines.getLast? = some line → isBlankLine line = false
  /-- Some line has text at the margin. -/
  margin : ∃ c rest, c :: rest ∈ lines ∧ isIndent c = false

/-! ## Quotes -/

open Lexer (threeQuotes BlockText)

/-- Escaped text begins with a quote only where the text does, and not with a group of three. -/
theorem escapeQuotes_quote {cs text : List Char} (apart : text.head? ≠ some '"')
    (h : (escapeQuotes cs ++ text).head? = some '"') :
    ∃ rest, cs = '"' :: rest ∧ escapeQuotes cs = '"' :: escapeQuotes rest := by
  fun_cases escapeQuotes cs with
  | case1 => exact absurd h apart
  | case2 rest => cases h
  | case3 c rest other =>
    have same : c = '"' := by
      simpa [escapeQuotes] using h
    subst same
    exact ⟨rest, rfl, rfl⟩

/-- Two quotes in escaped text are two quotes in the text. -/
theorem escapeQuotes_quotes {cs text : List Char} (apart : text.head? ≠ some '"')
    (h : ['"', '"'] <+: escapeQuotes cs ++ text) :
    ∃ rest, cs = '"' :: '"' :: rest ∧ escapeQuotes cs = '"' :: '"' :: escapeQuotes rest := by
  obtain ⟨tail, shape⟩ := h
  have first : (escapeQuotes cs ++ text).head? = some '"' := by
    rw [← shape]
    rfl
  obtain ⟨rest, rfl, escaped⟩ := escapeQuotes_quote apart first
  rw [escaped] at shape
  have second : (escapeQuotes rest ++ text).head? = some '"' :=
    (congrArg (fun cs => cs.tail.head?) shape).symm
  obtain ⟨rest', rfl, escaped'⟩ := escapeQuotes_quote apart second
  exact ⟨rest', rfl, by rw [escaped, escaped']⟩

theorem not_threeQuotes_escapeQuotes {cs text : List Char} (apart : text.head? ≠ some '"') :
    ¬ threeQuotes <+: escapeQuotes cs ++ text := by
  rintro ⟨tail, shape⟩
  have quotes : ['"', '"'] <+: escapeQuotes cs ++ text := ⟨'"' :: tail, shape⟩
  obtain ⟨rest, rfl, escaped⟩ := escapeQuotes_quotes apart quotes
  rw [escaped] at shape
  have third : (escapeQuotes rest ++ text).head? = some '"' :=
    (congrArg (fun cs => cs.tail.tail.head?) shape).symm
  obtain ⟨rest', rfl, -⟩ := escapeQuotes_quote apart third
  cases escaped

/-- Escaped text in front of a block text stands for the text. -/
theorem blockText_escapeQuotes {text raw : List Char} (more : BlockText text raw)
    (apart : text.head? ≠ some '"') (cs : List Char) :
    BlockText (escapeQuotes cs ++ text) (cs ++ raw) := by
  fun_induction escapeQuotes cs with
  | case1 => exact more
  | case2 rest ih => exact .escape ih
  | case3 c rest other ih =>
    refine .plain ?_ ?_ ih
    · rintro ⟨tail, shape⟩
      have same : c = '"' := (List.cons.inj shape).1.symm
      have quotes : ['"', '"'] <+: escapeQuotes rest ++ text := ⟨tail, (List.cons.inj shape).2⟩
      obtain ⟨rest', behind, -⟩ := escapeQuotes_quotes apart quotes
      exact other rest' same behind
    · rintro ⟨tail, shape⟩
      have quotes : threeQuotes <+: escapeQuotes rest ++ text := ⟨tail, (List.cons.inj shape).2⟩
      exact not_threeQuotes_escapeQuotes apart quotes

/-- Blanks and line ends in front of a block text stand for themselves. -/
theorem blockText_append {text raw run : List Char} (more : BlockText text raw)
    (unmarked : ∀ c ∈ run, c ≠ '"' ∧ c ≠ '\\') : BlockText (run ++ text) (run ++ raw) := by
  induction run with
  | nil => exact more
  | cons c run ih =>
    rw [List.forall_mem_cons] at unmarked
    refine .plain ?_ ?_ (ih unmarked.2)
    · rintro ⟨tail, shape⟩
      exact unmarked.1.1 (List.cons.inj shape).1.symm
    · rintro ⟨tail, shape⟩
      exact unmarked.1.2 (List.cons.inj shape).1.symm

/-! ## Blanks and line ends -/

variable {indent closing lineEnd : List Char} {lines : List (List Char)}

theorem unmarked_of_isIndent {c : Char} (h : isIndent c = true) : c ≠ '"' ∧ c ≠ '\\' := by
  constructor <;> rintro rfl <;> exact absurd h (by decide)

theorem no_lineEnd_of_blanks {run : List Char} (blanks : ∀ c ∈ run, isIndent c = true) :
    '\n' ∉ run ∧ '\r' ∉ run := by
  constructor <;> intro member <;> exact absurd (blanks _ member) (by decide)

theorem lineEndings_cases (h : lineEnd ∈ lineEndings) :
    lineEnd = ['\n'] ∨ lineEnd = ['\r', '\n'] ∨ lineEnd = ['\r'] := by
  simpa [lineEndings] using h

theorem unmarked_lineEnd (h : lineEnd ∈ lineEndings) : ∀ c ∈ lineEnd, c ≠ '"' ∧ c ≠ '\\' := by
  rcases lineEndings_cases h with rfl | rfl | rfl <;> simp

/-- A line end begins with no quote. -/
theorem apart_lineEnd (h : lineEnd ∈ lineEndings) (rest : List Char) :
    (lineEnd ++ rest).head? ≠ some '"' := by
  rcases lineEndings_cases h with rfl | rfl | rfl <;> simp

/-- The lines as they stand between the quotes, without the marks. -/
def unmarked (indent closing lineEnd : List Char) (lines : List (List Char)) : List Char :=
  lineEnd ++ (lines.flatMap (fun line => indent ++ line ++ lineEnd) ++ closing)

theorem blockText_layOut (indents : ∀ c ∈ indent, isIndent c = true)
    (closes : ∀ c ∈ closing, isIndent c = true) (ends : lineEnd ∈ lineEndings)
    (lines : List (List Char)) :
    ∃ text, layOut indent closing lineEnd lines = threeQuotes ++ text ∧
      BlockText text (unmarked indent closing lineEnd lines) := by
  refine ⟨_, rfl, blockText_append ?_ (unmarked_lineEnd ends)⟩
  have last : BlockText (closing ++ threeQuotes) (closing ++ []) :=
    blockText_append .close fun c member => unmarked_of_isIndent (closes c member)
  rw [List.append_nil] at last
  induction lines with
  | nil => exact last
  | cons line lines ih =>
    simp only [List.flatMap_cons, List.append_assoc] at ih ⊢
    apply blockText_append _ fun c member => unmarked_of_isIndent (indents c member)
    apply blockText_escapeQuotes _ (apart_lineEnd ends _)
    exact blockText_append ih (unmarked_lineEnd ends)

/-! ## Line ends -/

theorem unifyLineEnds_append {run : List Char} (plain : '\r' ∉ run) (rest : List Char) :
    unifyLineEnds (run ++ rest) = run ++ unifyLineEnds rest := by
  induction run with
  | nil => rfl
  | cons c run ih =>
    rw [List.mem_cons, not_or] at plain
    have other : c ≠ '\r' := Ne.symm plain.1
    simp [unifyLineEnds, other, ih plain.2]

theorem unifyLineEnds_lineEnd (h : lineEnd ∈ lineEndings) {rest : List Char}
    (apart : lineEnd = ['\r'] → rest.head? ≠ some '\n') :
    unifyLineEnds (lineEnd ++ rest) = '\n' :: unifyLineEnds rest := by
  rcases lineEndings_cases h with rfl | rfl | rfl
  · simp [unifyLineEnds]
  · simp [unifyLineEnds]
  · cases rest with
    | nil => rfl
    | cons c rest =>
      have other : c ≠ '\n' := fun same => apart rfl (congrArg some same)
      simp [unifyLineEnds, other]

theorem no_lineFeed_rows (indents : ∀ c ∈ indent, isIndent c = true)
    (closes : ∀ c ∈ closing, isIndent c = true)
    (plain : ∀ line ∈ lines, '\n' ∉ line ∧ '\r' ∉ line) :
    '\n' ∉ lines.flatMap (fun line => indent ++ line ++ ['\r']) ++ closing := by
  have open_indent := no_lineEnd_of_blanks indents
  have open_closing := no_lineEnd_of_blanks closes
  simp only [List.mem_append, List.mem_flatMap, not_or, not_exists, not_and]
  exact ⟨fun line member => ⟨⟨open_indent.1, (plain line member).1⟩, by decide⟩, open_closing.1⟩

theorem unifyLineEnds_rows (indents : ∀ c ∈ indent, isIndent c = true)
    (closes : ∀ c ∈ closing, isIndent c = true) (ends : lineEnd ∈ lineEndings)
    (plain : ∀ line ∈ lines, '\n' ∉ line ∧ '\r' ∉ line) :
    unifyLineEnds (lines.flatMap (fun line => indent ++ line ++ lineEnd) ++ closing) =
      lines.flatMap (fun line => indent ++ line ++ ['\n']) ++ closing := by
  induction lines with
  | nil =>
    have alone := unifyLineEnds_append (no_lineEnd_of_blanks closes).2 []
    rw [List.append_nil] at alone
    simpa [unifyLineEnds] using alone
  | cons line lines ih =>
    rw [List.forall_mem_cons] at plain
    have apart : lineEnd = ['\r'] →
        (lines.flatMap (fun line => indent ++ line ++ lineEnd) ++ closing).head? ≠ some '\n' := by
      rintro rfl
      exact mt List.mem_of_head? (no_lineFeed_rows indents closes plain.2)
    simp only [List.flatMap_cons, List.append_assoc] at ih apart ⊢
    rw [unifyLineEnds_append (no_lineEnd_of_blanks indents).2, unifyLineEnds_append plain.1.2,
      unifyLineEnds_lineEnd ends apart, ih plain.2]
    rfl

/-- Between the quotes, every line end counts as one line feed. -/
theorem unifyLineEnds_unmarked (indents : ∀ c ∈ indent, isIndent c = true)
    (closes : ∀ c ∈ closing, isIndent c = true) (ends : lineEnd ∈ lineEndings)
    (plain : ∀ line ∈ lines, '\n' ∉ line ∧ '\r' ∉ line) :
    unifyLineEnds (unmarked indent closing lineEnd lines) =
      unmarked indent closing ['\n'] lines := by
  rw [unmarked, unifyLineEnds_lineEnd ends, unifyLineEnds_rows indents closes ends plain]
  · rfl
  · rintro rfl
    exact mt List.mem_of_head? (no_lineFeed_rows indents closes plain)

/-- The rows of the content: an empty one behind the opening quotes, the lines with their
indentation, and what stands in front of the closing quotes. -/
theorem split_unmarked (indents : ∀ c ∈ indent, isIndent c = true)
    (closes : ∀ c ∈ closing, isIndent c = true) (plain : ∀ line ∈ lines, '\n' ∉ line) :
    Text.splitOnChar '\n' (unmarked indent closing ['\n'] lines) =
      [] :: (lines.map (indent ++ ·) ++ [closing]) := by
  rw [unmarked, List.singleton_append, Text.splitOnChar, if_pos rfl]
  congr 1
  induction lines with
  | nil => exact Text.splitOnChar_plain (no_lineEnd_of_blanks closes).1
  | cons line lines ih =>
    rw [List.forall_mem_cons] at plain
    have row : '\n' ∉ indent ++ line := by
      simp [(no_lineEnd_of_blanks indents).1, plain.1]
    simp only [List.flatMap_cons, List.append_assoc, List.singleton_append] at ih ⊢
    rw [List.cons_append, ← List.append_assoc, Text.splitOnChar_append,
      Text.splitOnChar_plain row, ih plain.2]
    rfl

/-! ## Indentation -/

theorem indentWidth?_append (indents : ∀ c ∈ indent, isIndent c = true) (line : List Char) :
    indentWidth? (indent ++ line) = (indentWidth? line).map (indent.length + ·) := by
  have blank : isBlankLine (indent ++ line) = isBlankLine line := by
    rw [isBlankLine, isBlankLine, List.all_append, List.all_eq_true.mpr indents, Bool.true_and]
  unfold indentWidth?
  rw [blank, List.takeWhile_append_of_pos indents, List.length_append]
  split <;> rfl

/-- The rows share the indentation that they were given, since one line has text at the margin. -/
theorem commonIndent_rows (indents : ∀ c ∈ indent, isIndent c = true)
    (closes : ∀ c ∈ closing, isIndent c = true)
    (margin : ∃ c rest, c :: rest ∈ lines ∧ isIndent c = false) :
    commonIndent (lines.map (indent ++ ·) ++ [closing]) = indent.length := by
  have last : indentWidth? closing = none := by
    rw [indentWidth?, isBlankLine, if_pos (List.all_eq_true.mpr closes)]
  have widths : (lines.map (indent ++ ·) ++ [closing]).filterMap indentWidth? =
      (lines.filterMap indentWidth?).map (indent.length + ·) := by
    have each : indentWidth? ∘ (indent ++ ·) =
        fun line => (indentWidth? line).map (indent.length + ·) :=
      funext (indentWidth?_append indents)
    rw [List.filterMap_append, List.filterMap_map, List.map_filterMap, each]
    simp [last]
  have least : ((lines.filterMap indentWidth?).map (indent.length + ·)).min? = some indent.length := by
    rw [List.min?_eq_some_iff]
    constructor
    · obtain ⟨c, rest, member, text⟩ := margin
      have none_wide : indentWidth? (c :: rest) = some 0 := by
        simp [indentWidth?, isBlankLine, text]
      exact List.mem_map.mpr ⟨0, List.mem_filterMap.mpr ⟨_, member, none_wide⟩, rfl⟩
    · intro width member
      obtain ⟨more, -, rfl⟩ := List.mem_map.mp member
      omega
  rw [commonIndent, widths, least]
  rfl

/-- Removing the shared indentation gives the lines again, and a blank row behind them. -/
theorem dedent_rows (indents : ∀ c ∈ indent, isIndent c = true)
    (closes : ∀ c ∈ closing, isIndent c = true)
    (margin : ∃ c rest, c :: rest ∈ lines ∧ isIndent c = false) :
    dedent ([] :: (lines.map (indent ++ ·) ++ [closing])) =
      [] :: (lines ++ [closing.drop indent.length]) := by
  rw [dedent, commonIndent_rows indents closes margin, List.map_append, List.map_map]
  simp [Function.comp_def]

theorem dropBlankEnds_rows {above below : List Char} (blank_above : isBlankLine above = true)
    (blank_below : isBlankLine below = true) (nonempty : lines ≠ [])
    (first : ∀ line, lines.head? = some line → isBlankLine line = false)
    (last : ∀ line, lines.getLast? = some line → isBlankLine line = false) :
    dropBlankEnds (above :: (lines ++ [below])) = lines := by
  have drop_first (rest : List (List Char)) :
      (lines ++ rest).dropWhile isBlankLine = lines ++ rest := by
    obtain ⟨line, others, rfl⟩ := List.exists_cons_of_ne_nil nonempty
    exact List.dropWhile_cons_of_neg (by simp [first line rfl])
  have drop_last : lines.reverse.dropWhile isBlankLine = lines.reverse := by
    obtain ⟨line, others, shape⟩ := List.exists_cons_of_ne_nil (List.reverse_ne_nil_iff.mpr nonempty)
    have ending : lines.getLast? = some line := by
      rw [← List.head?_reverse, shape]
      rfl
    rw [shape]
    exact List.dropWhile_cons_of_neg (by simp [last line ending])
  rw [dropBlankEnds, List.dropWhile_cons_of_pos blank_above, drop_first, List.reverse_append,
    List.reverse_singleton, List.singleton_append, List.dropWhile_cons_of_pos blank_below,
    drop_last, List.reverse_reverse]

/-- The value of a laid-out block string is its lines. -/
theorem value_unmarked (indents : ∀ c ∈ indent, isIndent c = true)
    (closes : ∀ c ∈ closing, isIndent c = true) (ends : lineEnd ∈ lineEndings)
    (h : HoldsItsLayout lines) :
    value (unmarked indent closing lineEnd lines) = ['\n'].intercalate lines := by
  have blank_below : isBlankLine (closing.drop indent.length) = true := by
    rw [isBlankLine, List.all_eq_true]
    exact fun c member => closes c (List.mem_of_mem_drop member)
  rw [value, unifyLineEnds_unmarked indents closes ends h.plain,
    split_unmarked indents closes fun line member => (h.plain line member).1,
    dedent_rows indents closes h.margin,
    dropBlankEnds_rows rfl blank_below h.nonempty h.first h.last]

end BlockString

open BlockString Lexer

/-- Lines laid out as a block string, below any indentation and with any line ends, are one token
that has the lines as its value. -/
theorem tokenize_layOut {lines : List (List Char)} (h : HoldsItsLayout lines)
    {indent closing lineEnd : List Char} (indents : ∀ c ∈ indent, isIndent c = true)
    (closes : ∀ c ∈ closing, isIndent c = true) (ends : lineEnd ∈ lineEndings) :
    tokenize (String.ofList (layOut indent closing lineEnd lines)) =
      .ok [⟨.string (String.ofList (['\n'].intercalate lines)), .start⟩,
        ⟨.eof, Position.start.advance (layOut indent closing lineEnd lines)⟩] := by
  obtain ⟨text, shape, inside⟩ := blockText_layOut indents closes ends lines
  have lexeme := @Lexeme.block [] _ _ inside
  rw [value_unmarked indents closes ends h] at lexeme
  have cut := @IsCut.piece ⟨[], threeQuotes ++ text, _⟩ [] [] [] .nil lexeme (.finish .nil)
  rw [List.append_nil] at cut
  rw [tokenize, String.toList_ofList, shape]
  exact cut.tokensFrom_eq .start

/-- Four quotes, a backslash and a deeper line keep their places below a tab and two blanks. -/
theorem tokenize_layOut_quotes :
    HoldsItsLayout ["\\\"\"\"\"".toList, [], "  b".toList] ∧
      tokenize "\"\"\"\r\n\t  \\\\\"\"\"\"\r\n\t  \r\n\t    b\r\n \"\"\"" =
        .ok [⟨.string "\\\"\"\"\"\n\n  b", ⟨1, 1⟩⟩, ⟨.eof, ⟨5, 5⟩⟩] := by
  have laid : HoldsItsLayout ["\\\"\"\"\"".toList, [], "  b".toList] := by
    refine ⟨by decide, by decide, ?_, ?_, '\\', "\"\"\"\"".toList, by decide, by decide⟩
    · rintro line ⟨⟩
      decide
    · rintro line ⟨⟩
      decide
  have indents : ∀ c ∈ "\t  ".toList, isIndent c = true := by simp [isIndent]
  have closes : ∀ c ∈ " ".toList, isIndent c = true := by simp [isIndent]
  have ends : ['\r', '\n'] ∈ lineEndings := by decide
  have read := tokenize_layOut laid indents closes ends
  exact ⟨laid, read⟩

end SchemaCompiler
