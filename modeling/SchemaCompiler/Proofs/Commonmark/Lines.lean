import SchemaCompiler.Commonmark.Line

/-!
Lines of a text.

A text is read by its line ends: a line feed, a carriage return and a line feed, a carriage return
alone; any other character goes in front of the first of the lines behind it. So a line feed parts
the lines in front of it from those behind it, and no line has a line end inside.
-/

namespace SchemaCompiler.Commonmark

def IsLineEnd (c : Char) : Prop := c = '\n' ∨ c = '\r'

/-- Puts a character in front of the first line. -/
def pushChar (c : Char) : List (List Char) → List (List Char)
  | [] => [[c]]
  | line :: more => (c :: line) :: more

/-! ## The equations of lines -/

theorem lines_lineFeed (rest : List Char) : lines ('\n' :: rest) = [] :: lines rest := by
  rw [lines.eq_def]
  rfl

theorem lines_return_lineFeed (rest : List Char) :
    lines ('\r' :: '\n' :: rest) = [] :: lines rest := by
  rw [lines]

theorem lines_return {rest : List Char} (alone : rest.head? ≠ some '\n') :
    lines ('\r' :: rest) = [] :: lines rest := by
  rw [lines.eq_def]
  split
  · contradiction
  · rename_i same
    cases same
    exact absurd rfl alone
  · rename_i same
    cases same
    exact if_pos (.inr rfl)

/-- The first line behind a line end is empty. -/
theorem lines_lineEnd {c : Char} (h : IsLineEnd c) (rest : List Char) :
    ∃ more, lines (c :: rest) = [] :: more := by
  rcases h with rfl | rfl
  · exact ⟨_, lines_lineFeed rest⟩
  · by_cases alone : rest.head? = some '\n'
    · obtain ⟨more, rfl⟩ := List.head?_eq_some_iff.mp alone
      exact ⟨_, lines_return_lineFeed more⟩
    · exact ⟨_, lines_return alone⟩

theorem lines_cons {c : Char} (h : ¬ IsLineEnd c) (rest : List Char) :
    lines (c :: rest) = pushChar c (lines rest) := by
  rw [lines.eq_def]
  split
  · contradiction
  · rename_i same
    cases same
    exact absurd (.inr rfl) h
  · rename_i same
    cases same
    refine (if_neg h).trans ?_
    split
    · rfl
    · rename_i d tail _
      split
      · rename_i ends
        obtain ⟨more, split⟩ := lines_lineEnd ends tail
        rw [split]
        rfl
      · cases lines (d :: tail) <;> rfl

/-- A text is read by its line ends. -/
theorem lines_induction {motive : List Char → Prop} (nil : motive [])
    (lineFeed : ∀ rest, motive rest → motive ('\n' :: rest))
    (both : ∀ rest, motive rest → motive ('\r' :: '\n' :: rest))
    (alone : ∀ rest, rest.head? ≠ some '\n' → motive rest → motive ('\r' :: rest))
    (other : ∀ c rest, ¬ IsLineEnd c → motive rest → motive (c :: rest)) (cs : List Char) :
    motive cs := by
  induction cs using lines.induct with
  | case1 => exact nil
  | case2 rest ih => exact both rest ih
  | case3 c rest first ends ih =>
    rcases ends with rfl | rfl
    · exact lineFeed rest ih
    · refine alone rest (fun next => ?_) ih
      obtain ⟨more, rfl⟩ := List.head?_eq_some_iff.mp next
      exact first more rfl rfl
  | case4 c ends _ => exact other c [] ends nil
  | case5 c ends d tail _ _ _ _ _ ih | case6 c ends d tail _ _ _ ih
  | case7 c ends d tail _ _ _ _ _ ih | case8 c ends d tail _ _ _ ih =>
    exact other c (d :: tail) ends ih

/-! ## Parting a text -/

theorem lines_ne_nil {cs : List Char} (some : cs ≠ []) : lines cs ≠ [] := by
  induction cs using lines_induction with
  | nil => exact absurd rfl some
  | lineFeed rest _ =>
    rw [lines_lineFeed]
    exact List.cons_ne_nil _ _
  | both rest _ =>
    rw [lines_return_lineFeed]
    exact List.cons_ne_nil _ _
  | alone rest alone _ =>
    rw [lines_return alone]
    exact List.cons_ne_nil _ _
  | other c rest ends _ =>
    rw [lines_cons ends]
    cases lines rest <;> exact List.cons_ne_nil _ _

theorem pushChar_append {c : Char} {first : List (List Char)} (some : first ≠ [])
    (more : List (List Char)) : pushChar c (first ++ more) = pushChar c first ++ more := by
  cases first with
  | nil => exact absurd rfl some
  | cons line first => rfl

/-- A line feed parts the lines of a text. -/
theorem lines_append_lineFeed (front back : List Char) :
    lines (front ++ '\n' :: back) = lines (front ++ ['\n']) ++ lines back := by
  induction front using lines_induction with
  | nil =>
    simp only [List.nil_append, lines_lineFeed]
    rfl
  | lineFeed rest ih => simp only [List.cons_append, lines_lineFeed, ih]
  | both rest ih => simp only [List.cons_append, lines_return_lineFeed, ih]
  | alone rest alone ih =>
    cases rest with
    | nil =>
      simp only [List.cons_append, List.nil_append, lines_return_lineFeed]
      rfl
    | cons d rest =>
      have alone (more : List Char) : (d :: rest ++ more).head? ≠ some '\n' := alone
      change lines ('\r' :: (d :: rest ++ '\n' :: back)) =
        lines ('\r' :: (d :: rest ++ ['\n'])) ++ lines back
      rw [lines_return (alone _), lines_return (alone _), ih]
      rfl
  | other c rest ends ih =>
    have some : lines (rest ++ ['\n']) ≠ [] := lines_ne_nil (by simp)
    rw [List.cons_append, List.cons_append, lines_cons ends, lines_cons ends, ih,
      pushChar_append some]

/-- The text is empty or ends in a line feed. -/
def EndsLine (cs : List Char) : Prop := cs = [] ∨ ∃ front, cs = front ++ ['\n']

theorem EndsLine.append {front back : List Char} (first : EndsLine front)
    (second : EndsLine back) : EndsLine (front ++ back) := by
  rcases second with rfl | ⟨more, rfl⟩
  · rwa [List.append_nil]
  · exact .inr ⟨front ++ more, (List.append_assoc ..).symm⟩

theorem EndsLine.lines_append {front : List Char} (h : EndsLine front) (back : List Char) :
    lines (front ++ back) = lines front ++ lines back := by
  rcases h with rfl | ⟨front, rfl⟩
  · rfl
  · rw [List.append_assoc, List.singleton_append, lines_append_lineFeed]

/-- A line in front of a text. -/
theorem lines_line {line : List Char} (inside : ∀ c ∈ line, ¬ IsLineEnd c) (rest : List Char) :
    lines (line ++ '\n' :: rest) = line :: lines rest := by
  induction line with
  | nil => exact lines_lineFeed rest
  | cons c line ih =>
    rw [List.forall_mem_cons] at inside
    rw [List.cons_append, lines_cons inside.1, ih inside.2]
    rfl

/-! ## What lines hold -/

theorem not_isLineEnd_of_mem_lines (cs : List Char) :
    ∀ line ∈ lines cs, ∀ c ∈ line, ¬ IsLineEnd c := by
  induction cs using lines_induction with
  | nil => nofun
  | lineFeed rest ih =>
    rw [lines_lineFeed, List.forall_mem_cons]
    exact ⟨nofun, ih⟩
  | both rest ih =>
    rw [lines_return_lineFeed, List.forall_mem_cons]
    exact ⟨nofun, ih⟩
  | alone rest alone ih =>
    rw [lines_return alone, List.forall_mem_cons]
    exact ⟨nofun, ih⟩
  | other c rest ends ih =>
    rw [lines_cons ends]
    cases behind : lines rest with
    | nil => simpa [pushChar] using ends
    | cons line more =>
      rw [behind, List.forall_mem_cons] at ih
      simp only [pushChar, List.forall_mem_cons]
      exact ⟨⟨ends, ih.1⟩, ih.2⟩

end SchemaCompiler.Commonmark
