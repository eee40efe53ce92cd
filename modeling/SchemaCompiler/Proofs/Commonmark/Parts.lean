import SchemaCompiler.Proofs.Commonmark.Below
import SchemaCompiler.Proofs.Commonmark.Lines
import SchemaCompiler.Proofs.Source.Lexemes

/-!
Texts in parts.

A part is a heading with a text behind it. A heading at the margin closes all containers, so a text
made of parts reads as the headings with the blocks of each part behind them, provided that no part
leaves code behind a fence or HTML open.
-/

namespace SchemaCompiler.Commonmark

def Frame.isList : Frame → Bool
  | .list .. => true
  | _ => false

open Commonmark.Frame (isList)

namespace State

/-! ## Closing everything -/

/-- Closes all containers and the leaf inside them. -/
def finish (s : State) : State := (s.closeFrames s.frames.length).closeLeaf

theorem add_isList (s : State) (block : Block) :
    (s.add block).frames.map isList = s.frames.map isList := by
  obtain ⟨_, _ | ⟨_ | _ | _, frames⟩, _, _, _⟩ := s <;> rfl

theorem closeLeaf_isList (s : State) : s.closeLeaf.frames.map isList = s.frames.map isList := by
  rw [closeLeaf]
  split
  · rfl
  · exact add_isList _ _

theorem closeFrame_isList (s : State) :
    s.closeFrame.frames.map isList = (s.frames.map isList).tail := by
  rw [closeFrame]
  split <;> rename_i same <;> rw [same]
  · rfl
  · exact add_isList _ _
  · exact add_isList _ _
  · rfl
  · rfl

theorem closeFrames_isList (s : State) (n : Nat) :
    (s.closeFrames n).frames.map isList = (s.frames.map isList).drop n := by
  induction n generalizing s with
  | zero => rfl
  | succ n ih => rw [closeFrames, ih, closeFrame_isList, closeLeaf_isList, List.drop_tail]

theorem closeFrames_succ (s : State) (n : Nat) :
    s.closeFrames (n + 1) = (s.closeFrames n).closeLeaf.closeFrame := by
  induction n generalizing s with
  | zero => rfl
  | succ n ih => rw [closeFrames, ih, closeFrames]

theorem add_definitions (s : State) (block : Block) :
    (s.add block).definitions = s.definitions := by
  obtain ⟨_, _ | ⟨_ | _ | _, frames⟩, _, _, _⟩ := s <;> rfl

theorem closeLeaf_definitions (s : State) : s.closeLeaf.definitions = s.definitions := by
  rw [closeLeaf]
  split
  · rfl
  · exact add_definitions _ _

theorem closeFrame_definitions (s : State) : s.closeFrame.definitions = s.definitions := by
  rw [closeFrame]
  split <;> first | rfl | exact add_definitions _ _

theorem closeFrames_definitions (s : State) (n : Nat) :
    (s.closeFrames n).definitions = s.definitions := by
  induction n generalizing s with
  | zero => rfl
  | succ n ih => rw [closeFrames, ih, closeFrame_definitions, closeLeaf_definitions]

theorem finish_frames (s : State) : s.finish.frames = [] := by
  have none : s.finish.frames.map isList = [] := by
    rw [finish, closeLeaf_isList, closeFrames_isList, ← List.length_map (f := isList),
      List.drop_length]
  exact List.map_eq_nil_iff.mp none

theorem finish_definitions (s : State) : s.finish.definitions = s.definitions := by
  rw [finish, closeLeaf_definitions, closeFrames_definitions]

theorem finish_below (root : List Block) (definitions : List LinkDefinition) (s : State) :
    (s.below root definitions).finish = s.finish.below root definitions := by
  rw [finish, finish, below_frames, closeFrames_below, closeLeaf_below]

/-- The blocks and the definitions that were read. -/
def contents (s : State) : List Block × List LinkDefinition :=
  (s.finish.root.reverse, s.definitions)

theorem contents_below (root : List Block) (definitions : List LinkDefinition) (s : State) :
    (s.below root definitions).contents =
      (root.reverse ++ s.contents.1, definitions ++ s.contents.2) := by
  rw [contents, finish_below]
  simp [below, contents]

/-! ## Lines at the margin -/

/-- Code behind a fence, or HTML, stands open outside of all containers. It takes lines at the
margin as they are. -/
def takesMargin (s : State) : Bool :=
  s.frames.isEmpty &&
    match s.leaf with
    | some (.fenced ..) | some (.html ..) => true
    | _ => false

end State

open State

/-- The outermost container is a quote, or a list with an item in it. -/
theorem HoldsBlocks.outermost {frames : List Frame} (h : HoldsBlocks frames) :
    frames.reverse = [] ∨ (∃ children inside, frames.reverse = .quote children :: inside) ∨
      ∃ marker loose items width children inside, 0 < width ∧
        frames.reverse = .list marker loose items :: .item width children :: inside := by
  induction h with
  | root => exact .inl rfl
  | quote children _ ih =>
    rw [List.reverse_cons]
    rcases ih with none | ⟨outer, inside, same⟩ | ⟨m, l, i, w, c, inside, indented, same⟩
    · exact .inr (.inl ⟨children, [], by rw [none, List.nil_append]⟩)
    · exact .inr (.inl ⟨outer, inside ++ [_], by rw [same, List.cons_append]⟩)
    · exact .inr (.inr ⟨m, l, i, w, c, inside ++ [_], indented, by rw [same]; rfl⟩)
  | item indented children marker loose items _ ih =>
    rw [List.reverse_cons, List.reverse_cons, List.append_assoc]
    rcases ih with none | ⟨outer, inside, same⟩ | ⟨m, l, i, w, c, inside, indented, same⟩
    · exact .inr (.inr ⟨marker, loose, items, _, children, [], indented, by rw [none]; rfl⟩)
    · exact .inr (.inl ⟨outer, inside ++ [_, _], by rw [same]; rfl⟩)
    · exact .inr (.inr ⟨m, l, i, w, c, inside ++ [_, _], indented, by rw [same]; rfl⟩)

theorem State.Nested.outermost {s : State} (nested : s.Nested) :
    s.frames.reverse = [] ∨ (∃ marker loose items, s.frames.reverse = [.list marker loose items]) ∨
      (∃ children inside, s.frames.reverse = .quote children :: inside) ∨
      ∃ marker loose items width children inside, 0 < width ∧
        s.frames.reverse = .list marker loose items :: .item width children :: inside := by
  cases nested with
  | block holds => exact holds.outermost.imp_right .inr
  | @list marker loose items frames innermost around _ =>
    rw [innermost, List.reverse_cons]
    rcases around.outermost with none | ⟨outer, inside, same⟩ |
      ⟨m, l, i, w, c, inside, indented, same⟩
    · exact .inr (.inl ⟨marker, loose, items, by rw [none, List.nil_append]⟩)
    · exact .inr (.inr (.inl ⟨outer, inside ++ [_], by rw [same, List.cons_append]⟩))
    · exact .inr (.inr (.inr ⟨m, l, i, w, c, inside ++ [_], indented, by rw [same]; rfl⟩))

/-- Beyond the `n` innermost containers there is none, or one list. -/
def State.AllBut (s : State) (n : Nat) : Prop :=
  n = s.frames.length ∨ n + 1 = s.frames.length ∧ (s.frames.map isList).getLast? = some true

/-- A line that starts with the mark of a heading enters nothing but a list. -/
theorem State.Nested.enterFrames_margin {s : State} (nested : s.Nested) (rest : List Char) :
    ∃ n, enterFrames s.leaf.isNone (Cursor.ofLine ('#' :: rest)) s.frames.reverse =
        (n, Cursor.ofLine ('#' :: rest)) ∧ s.AllBut n := by
  have length := s.frames.length_reverse
  have last : (s.frames.map isList).getLast? = (s.frames.reverse.map isList).head? := by
    rw [← List.head?_reverse, List.map_reverse]
  simp only [AllBut, last]
  rcases nested.outermost with none | ⟨m, l, i, same⟩ | ⟨outer, inside, same⟩ |
    ⟨m, l, i, w, c, inside, indented, same⟩
  · rw [none] at length ⊢
    exact ⟨0, rfl, .inl length⟩
  · rw [same] at length ⊢
    exact ⟨0, rfl, .inr ⟨length, rfl⟩⟩
  · rw [same] at length ⊢
    exact ⟨inside.length + 1, rfl, .inl length⟩
  · rw [same] at length ⊢
    have stays (bare : Bool) :
        (Frame.item w c).enter? bare (Cursor.ofLine ('#' :: rest)) = none := by
      have outside : ¬ w ≤ (Cursor.ofLine ('#' :: rest)).indent := Nat.not_le.mpr indented
      simp only [Frame.enter?]
      rw [if_neg (by simp [Cursor.isBlank, Cursor.ofLine, isSpace]), if_neg outside]
    refine ⟨inside.length + 1, ?_, .inr ⟨length, rfl⟩⟩
    rw [enterFrames]
    simp only [Frame.enter?]
    rw [enterFrames, stays]

theorem State.loosen_of_root {s : State} (none : s.frames = []) :
    s.loosen = { s with parted := false } := by
  obtain ⟨_, _, _, _ | _, _⟩ := s <;> cases none <;> rfl

/-- In front of a heading everything is closed. -/
theorem State.AllBut.beginBlock {s : State} {n : Nat} (h : s.AllBut n) :
    s.beginBlock n = { s.finish with parted := false } := by
  rcases h with rfl | ⟨length, last⟩
  · have same : (s.closeFrames s.frames.length).closeLeaf = s.finish := rfl
    rw [← loosen_of_root s.finish_frames, State.beginBlock, same]
    rw [s.finish_frames]
  · have finished : s.finish = (s.closeFrames n).closeLeaf.closeFrame := by
      rw [finish, ← length, closeFrames_succ]
      exact closeLeaf_of_none ((closeFrame_leaf _).trans (closeLeaf_leaf _))
    have one : (s.closeFrames n).closeLeaf.frames.map isList = [true] := by
      rw [closeLeaf_isList, closeFrames_isList]
      obtain ⟨front, split⟩ := List.getLast?_eq_some_iff.mp last
      have front_length : front.length = n := by
        have := congrArg List.length split
        simp at this
        omega
      rw [split, ← front_length, List.drop_left]
    obtain ⟨frame, same, list⟩ := List.map_eq_singleton_iff.mp one
    rw [← loosen_of_root s.finish_frames, State.beginBlock, finished]
    rw [same]
    cases frame with
    | list marker loose items => rfl
    | _ => cases list

/-- A heading at the margin closes everything and stands behind it. -/
theorem readLine_heading {s : State} (nested : s.Nested) (free : s.takesMargin = false)
    {rest : List Char} {block : Block} (heading : heading? ('#' :: rest) = some block)
    (next : List (List Char)) :
    readLine s ('#' :: rest) next =
      (State.empty.below (block :: s.finish.root) s.definitions, 0) := by
  obtain ⟨n, entered, outermost⟩ := nested.enterFrames_margin rest
  have nonblank : (Cursor.ofLine ('#' :: rest)).isBlank = false := by
    simp [Cursor.isBlank, Cursor.ofLine, isSpace]
  have body : (Cursor.ofLine ('#' :: rest)).dropBlanks.rest = '#' :: rest := rfl
  have other (fuel : Nat) : readRest next (fuel + 1) s n (Cursor.ofLine ('#' :: rest)) =
      (State.empty.below (block :: s.finish.root) s.definitions, 0) := by
    rw [readRest, nonblank, body, heading, outermost.beginBlock]
    change (({ s.finish with parted := false } : State).add block, 0) = _
    have frames := s.finish_frames
    have leaf : s.finish.leaf = none := closeLeaf_leaf _
    rw [← s.finish_definitions]
    generalize s.finish = t at frames leaf ⊢
    obtain ⟨root, _, _, parted, definitions⟩ := t
    cases frames
    cases leaf
    simp [add, below, empty]
  rw [readLine, entered]
  dsimp only
  rw [other]
  split
  · rfl
  rename_i inside
  -- where a leaf is open inside all containers, there are none
  have root {leaf : Leaf} (here : s.leaf = some leaf) : s.frames = [] := by
    have holds := nested.holdsBlocks here
    rcases outermost with same | ⟨one, last⟩
    · rw [Decidable.not_not.mp inside] at same
      exact List.eq_nil_of_length_eq_zero same.symm
    · rw [Decidable.not_not.mp inside] at one
      obtain ⟨frame, same⟩ := List.length_eq_one_iff.mp one.symm
      rw [same] at last holds
      cases holds
      cases last
  split
  · rename_i here
    simp [takesMargin, here, root here] at free
  · rw [nonblank]
    rfl
  · rename_i here
    simp [takesMargin, here, root here] at free
  · rename_i here
    simp [takesMargin, here, root here] at free
  · rfl

/-! ## Headings -/

/-- A text on one line, with neither blanks nor marks at its ends. -/
structure IsHeadingText (text : List Char) : Prop where
  first : ∀ c, text.head? = some c → isSpace c = false
  last : ∃ c, text.getLast? = some c ∧ isSpace c = false ∧ c ≠ '#'
  line : ∀ c ∈ text, ¬ IsLineEnd c

theorem dropWhile_of_head {p : Char → Bool} {cs : List Char}
    (h : ∀ c, cs.head? = some c → p c = false) : cs.dropWhile p = cs := by
  cases cs with
  | nil => rfl
  | cons c cs => exact List.dropWhile_cons_of_neg (by rw [h c rfl]; exact Bool.false_ne_true)

theorem IsHeadingText.headingText_eq {text : List Char} (h : IsHeadingText text) :
    headingText (' ' :: text) = text := by
  obtain ⟨c, last, other, unmarked⟩ := h.last
  obtain ⟨front, rfl⟩ := List.getLast?_eq_some_iff.mp last
  have back : (front ++ [c]).reverse = c :: front.reverse := List.reverse_concat
  have trimmed : Text.trimBy isSpace (' ' :: (front ++ [c])) = front ++ [c] := by
    have behind : (' ' :: (front ++ [c])).dropWhile isSpace = front ++ [c] :=
      dropWhile_of_head h.first
    rw [Text.trimBy, behind, back, List.dropWhile_cons_of_neg (by simp [other]), ← back,
      List.reverse_reverse]
  have unclosed : (front ++ [c]).reverse.dropWhile (· == '#') = c :: front.reverse := by
    rw [back, List.dropWhile_cons_of_neg (by simpa using unmarked)]
  rw [headingText, trimmed, unclosed]
  dsimp only
  rw [other]
  rfl

theorem heading?_marks {text : List Char} (h : IsHeadingText text) {level : Nat}
    (some : 1 ≤ level) (few : level ≤ 6) :
    heading? (List.replicate level '#' ++ ' ' :: text) = .some (.heading level text) := by
  have marks : (List.replicate level '#' ++ ' ' :: text).takeWhile (· == '#') =
      List.replicate level '#' :=
    (span_append (by simp) fun c first => by cases first; rfl).1
  rw [heading?, marks, List.length_replicate, List.drop_left' List.length_replicate,
    if_pos ⟨some, few, rfl⟩, h.headingText_eq]

/-! ## Parts -/

/-- A heading and the text behind it. -/
structure Part where
  level : Nat
  heading : List Char
  body : List Char

/-- Behind the text and a blank line, code or HTML still stands open outside of all containers. -/
def leavesOpen (cs : List Char) : Bool := (readLines .empty 0 (lines cs ++ [[]])).takesMargin

namespace Part

def headLine (p : Part) : List Char := List.replicate p.level '#' ++ ' ' :: p.heading

def text (p : Part) : List Char := p.headLine ++ '\n' :: (p.body ++ ['\n'])

def lines (p : Part) : List (List Char) := p.headLine :: (Commonmark.lines p.body ++ [[]])

/-- The heading and the blocks behind it. -/
def blocks (p : Part) : List Block :=
  .heading p.level p.heading :: (readBlocks (p.body ++ ['\n'])).1

/-- The part reads as its heading with its text behind it. -/
structure Whole (p : Part) : Prop where
  level : 1 ≤ p.level ∧ p.level ≤ 6
  heading : IsHeadingText p.heading
  body : EndsLine p.body
  closed : leavesOpen p.body = false

theorem Whole.heading?_eq {p : Part} (h : p.Whole) :
    heading? p.headLine = some (.heading p.level p.heading) :=
  heading?_marks h.heading h.level.1 h.level.2

theorem Whole.line {p : Part} (h : p.Whole) : ∀ c ∈ p.headLine, ¬ IsLineEnd c := by
  intro c member
  rcases List.mem_append.mp member with mark | member
  · rw [List.eq_of_mem_replicate mark]
    simp [IsLineEnd]
  · rcases List.mem_cons.mp member with rfl | inside
    · simp [IsLineEnd]
    · exact h.heading.line c inside

theorem lines_text {parts : List Part} (whole : ∀ p ∈ parts, p.Whole) :
    Commonmark.lines (parts.flatMap text) = parts.flatMap lines := by
  induction parts with
  | nil => rfl
  | cons p parts ih =>
    rw [List.forall_mem_cons] at whole
    have first : p.text ++ parts.flatMap text =
        p.headLine ++ '\n' :: (p.body ++ '\n' :: parts.flatMap text) := by
      simp [text]
    rw [List.flatMap_cons, List.flatMap_cons, first, lines_line whole.1.line,
      whole.1.body.lines_append, lines_lineFeed, ih whole.2]
    simp [lines]

end Part

/-- Reading a text and then a blank line. -/
theorem readBlocks_lineFeed {cs : List Char} (ends : EndsLine cs) :
    readBlocks (cs ++ ['\n']) = (readLines .empty 0 (lines cs ++ [[]])).contents := by
  have split : lines (cs ++ ['\n']) = lines cs ++ [[]] := by
    rw [ends.lines_append]
    rfl
  rw [readBlocks, split]
  change ((readLines .empty 0 (lines cs ++ [[]])).finish.root.reverse,
    (readLines .empty 0 (lines cs ++ [[]])).finish.definitions) = _
  rw [finish_definitions]
  rfl

theorem nested_empty : State.empty.Nested := .block .root

theorem not_mem_lines (cs : List Char) : ∀ line ∈ lines cs, '\n' ∉ line :=
  fun line member inside => not_isLineEnd_of_mem_lines cs line member '\n' inside (.inl rfl)

theorem contents_readLines_parts {parts : List Part} (whole : ∀ p ∈ parts, p.Whole) {s : State}
    (nested : s.Nested) (free : s.takesMargin = false) :
    (readLines s 0 (parts.flatMap Part.lines)).contents =
      (s.contents.1 ++ parts.flatMap Part.blocks,
        s.contents.2 ++ parts.flatMap fun p => (readBlocks (p.body ++ ['\n'])).2) := by
  induction parts generalizing s with
  | nil => simp [readLines, contents]
  | cons p parts ih =>
    rw [List.forall_mem_cons] at whole
    -- the heading closes what is open in front of it, and its text is read below it
    obtain ⟨n, levels⟩ := Nat.exists_eq_succ_of_ne_zero (Nat.pos_iff_ne_zero.mp whole.1.level.1)
    have head : p.headLine = '#' :: (List.replicate n '#' ++ ' ' :: p.heading) := by
      rw [Part.headLine, levels]
      rfl
    have follows := readLines_follows (.heading p.level p.heading :: s.finish.root)
      s.definitions (parts.flatMap Part.lines) (not_mem_lines p.body) (Nat.zero_le _) nested_empty
    have read : readLines s 0 ((p :: parts).flatMap Part.lines) =
        readLines ((readLines .empty 0 (lines p.body ++ [[]])).below
          (.heading p.level p.heading :: s.finish.root) s.definitions) 0
          (parts.flatMap Part.lines) := by
      rw [List.flatMap_cons, Part.lines, List.cons_append, readLines, head,
        readLine_heading nested free (head ▸ whole.1.heading?_eq), List.append_assoc]
      exact follows.1
    rw [read, ih whole.2 ((nested_below _ _).mpr follows.2) whole.1.closed, contents_below,
      ← readBlocks_lineFeed whole.1.body]
    simp [Part.blocks, contents]

/-- A text in front of parts and the parts read as their blocks, one after another. -/
theorem readBlocks_parts {front : List Char} {parts : List Part} (ends : EndsLine front)
    (closed : leavesOpen front = false) (whole : ∀ p ∈ parts, p.Whole) :
    readBlocks (front ++ '\n' :: parts.flatMap Part.text) =
      ((readBlocks (front ++ ['\n'])).1 ++ parts.flatMap Part.blocks,
        (readBlocks (front ++ ['\n'])).2 ++
          parts.flatMap fun p => (readBlocks (p.body ++ ['\n'])).2) := by
  have follows := readLines_follows [] [] (parts.flatMap Part.lines) (not_mem_lines front)
    (Nat.zero_le _) nested_empty
  have split : lines (front ++ '\n' :: parts.flatMap Part.text) =
      lines front ++ [] :: parts.flatMap Part.lines := by
    rw [ends.lines_append, lines_lineFeed, Part.lines_text whole]
  have below (s : State) : s.below [] [] = s := by simp [State.below]
  rw [below, below] at follows
  rw [readBlocks_lineFeed ends, ← contents_readLines_parts whole follows.2 closed, ← follows.1,
    ← split, readBlocks]
  exact congrArg (Prod.mk _) (finish_definitions _)

end SchemaCompiler.Commonmark
