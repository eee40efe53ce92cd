import Mathlib.Logic.Function.Basic
import SchemaCompiler.Text.Lines

/-!
The pieces of a text between separators: they make up the text again, and no separator is in them.
-/

namespace SchemaCompiler.Text

theorem splitOnChar_eq_cons (separator : Char) (cs : List Char) :
    ∃ piece pieces, splitOnChar separator cs = piece :: pieces := by
  cases h : splitOnChar separator cs with
  | nil => cases cs <;> grind [splitOnChar]
  | cons piece pieces => exact ⟨piece, pieces, rfl⟩

theorem splitOnChar_append (separator : Char) (front rest : List Char) :
    splitOnChar separator (front ++ separator :: rest) =
      splitOnChar separator front ++ splitOnChar separator rest := by
  induction front with
  | nil => simp only [List.nil_append, splitOnChar, if_true, List.cons_append]
  | cons c front ih =>
    simp only [List.cons_append, splitOnChar, ih]
    split
    · rfl
    · obtain ⟨piece, pieces, hsplit⟩ := splitOnChar_eq_cons separator front
      rw [hsplit]
      rfl

theorem splitOnChar_plain {separator : Char} {cs : List Char} (h : separator ∉ cs) :
    splitOnChar separator cs = [cs] := by
  induction cs with
  | nil => rfl
  | cons c cs ih =>
    rw [List.mem_cons, not_or] at h
    rw [splitOnChar, if_neg (Ne.symm h.1), ih h.2]

theorem not_mem_of_mem_splitOnChar {separator : Char} {cs piece : List Char}
    (h : piece ∈ splitOnChar separator cs) : separator ∉ piece := by
  induction cs generalizing piece with
  | nil => simp_all [splitOnChar]
  | cons c cs ih =>
    obtain ⟨first, others, hsplit⟩ := splitOnChar_eq_cons separator cs
    rw [splitOnChar, hsplit] at h
    grind

/-- The pieces with separators between them are the text again. -/
theorem intercalate_splitOnChar (separator : Char) (cs : List Char) :
    [separator].intercalate (splitOnChar separator cs) = cs := by
  induction cs with
  | nil => rfl
  | cons c cs ih =>
    obtain ⟨piece, pieces, hsplit⟩ := splitOnChar_eq_cons separator cs
    rw [splitOnChar, hsplit]
    rw [hsplit] at ih
    split
    · rename_i h
      rw [List.intercalate_cons_cons, ih, h]
      rfl
    · cases pieces with
      | nil => simpa using ih
      | cons next pieces =>
        rw [List.intercalate_cons_cons] at ih ⊢
        rw [← ih]
        rfl

theorem splitOnChar_injective (separator : Char) :
    Function.Injective (splitOnChar separator) := by
  intro a b h
  rw [← intercalate_splitOnChar separator a, h, intercalate_splitOnChar]

/-- What is no separator stands in a piece. -/
theorem mem_splitOnChar_iff {separator c : Char} (other : c ≠ separator) (cs : List Char) :
    (∃ piece ∈ splitOnChar separator cs, c ∈ piece) ↔ c ∈ cs := by
  induction cs with
  | nil => simp [splitOnChar]
  | cons d cs ih =>
    obtain ⟨piece, pieces, hsplit⟩ := splitOnChar_eq_cons separator cs
    rw [hsplit] at ih
    rw [splitOnChar, hsplit]
    by_cases here : d = separator
    · have apart : c ≠ d := fun same => other (same.trans here)
      simpa [here, apart, other] using ih
    · simp only [here, if_false, List.mem_cons, exists_eq_or_imp, or_assoc] at ih ⊢
      rw [ih]

theorem mem_intercalate_iff {c : Char} {separator : String} (other : c ∉ separator.toList)
    (texts : List String) :
    c ∈ (String.intercalate separator texts).toList ↔ ∃ text ∈ texts, c ∈ text.toList := by
  induction texts with
  | nil => simp
  | cons text texts ih =>
    cases texts with
    | nil => simp
    | cons next texts =>
      rw [String.intercalate_cons_cons, String.toList_append, String.toList_append,
        List.mem_append, List.mem_append, ih]
      simp [other]

/-- What stands in front of the first mark. -/
theorem takeWhile_ne_eq_iff {mark : Char} {rest word : List Char} :
    rest.takeWhile (· ≠ mark) = word ↔
      mark ∉ word ∧ (rest = word ∨ ∃ value, rest = word ++ mark :: value) := by
  induction rest generalizing word with
  | nil => cases word <;> simp
  | cons c rest ih =>
    cases word with
    | nil => by_cases same : c = mark <;> simp [same]
    | cons d word =>
      by_cases same : c = mark
      · have stops : (c :: rest).takeWhile (· ≠ mark) = [] := by simp [same]
        rw [stops]
        grind
      · have goes : (c :: rest).takeWhile (· ≠ mark) = c :: rest.takeWhile (· ≠ mark) := by
          simp [same]
        rw [goes, List.cons.injEq, ih]
        grind

/-- The last piece ends the text. -/
theorem splitOnChar_last (separator : Char) (cs : List Char) :
    ∃ pieces last front, splitOnChar separator cs = pieces ++ [last] ∧ cs = front ++ last := by
  have ends (pieces : List (List Char)) (last : List Char) :
      ∃ front, [separator].intercalate (pieces ++ [last]) = front ++ last := by
    induction pieces with
    | nil => exact ⟨[], by simp⟩
    | cons piece pieces ih =>
      obtain ⟨front, shape⟩ := ih
      obtain ⟨next, others, split⟩ := List.exists_cons_of_ne_nil (l := pieces ++ [last]) (by simp)
      rw [split] at shape
      refine ⟨piece ++ [separator] ++ front, ?_⟩
      rw [List.cons_append, split, List.intercalate_cons_cons, shape, List.append_assoc _ front]
  obtain ⟨piece, pieces, some⟩ := splitOnChar_eq_cons separator cs
  obtain none | ⟨pieces, last, split⟩ := (splitOnChar separator cs).eq_nil_or_concat
  · rw [none] at some
    cases some
  · rw [List.concat_eq_append] at split
    obtain ⟨front, shape⟩ := ends pieces last
    rw [← split, intercalate_splitOnChar] at shape
    exact ⟨pieces, last, front, split, shape⟩

/-- What has no separator stands inside one piece. -/
theorem splitOnChar_append_plain {separator : Char} {word : List Char} (plain : separator ∉ word)
    (front : List Char) :
    ∃ pieces start, splitOnChar separator (front ++ word) = pieces ++ [start ++ word] := by
  induction front with
  | nil => exact ⟨[], [], splitOnChar_plain plain⟩
  | cons c front ih =>
    obtain ⟨pieces, start, split⟩ := ih
    rw [List.cons_append, splitOnChar, split]
    split
    · exact ⟨[] :: pieces, start, rfl⟩
    · cases pieces with
      | nil => exact ⟨[], c :: start, rfl⟩
      | cons piece pieces => exact ⟨(c :: piece) :: pieces, start, rfl⟩

theorem lines_last {text : String} {pieces : List (List Char)} {last : List Char}
    (split : splitOnChar '\n' text.toList = pieces ++ [last]) (some : last ≠ []) :
    ∃ others, lines text = others ++ [String.ofList last] := by
  refine ⟨(pieces.map dropLastReturn).map String.ofList, ?_⟩
  unfold lines linesOf
  rw [split]
  cases last with
  | nil => exact absurd rfl some
  | cons c last => simp

theorem lineFeed_not_mem_lines {text line : String} (h : line ∈ lines text) :
    '\n' ∉ line.toList := by
  obtain ⟨cs, member, rfl⟩ := List.mem_map.mp h
  rw [String.toList_ofList]
  have closed {line : List Char}
      (h : line ∈ (splitOnChar '\n' text.toList).dropLast.map dropLastReturn) : '\n' ∉ line := by
    obtain ⟨piece, inside, rfl⟩ := List.mem_map.mp h
    have plain := not_mem_of_mem_splitOnChar (List.dropLast_subset _ inside)
    unfold dropLastReturn
    split
    · exact fun ends => plain (List.dropLast_subset _ ends)
    · exact plain
  unfold linesOf at member
  simp only at member
  split at member
  · exact closed member
  · exact closed member
  · next last final =>
    rcases List.mem_append.mp member with inside | ends
    · exact closed inside
    · obtain rfl := List.mem_singleton.mp ends
      exact not_mem_of_mem_splitOnChar (List.mem_of_getLast? final)

end SchemaCompiler.Text
