import SchemaCompiler.Proofs.Commonmark.Nesting

/-!
Reading behind other blocks.

What was complete before a text and the definitions in front of it have no part in how the text is
read, and nothing of what follows a blank line has. So a text in front of a blank line reads as it
does by itself.
-/

namespace SchemaCompiler.Commonmark

namespace State

/-- The state with other complete blocks below its own and other definitions in front of its own. -/
def below (s : State) (root : List Block) (definitions : List LinkDefinition) : State :=
  { s with root := s.root ++ root, definitions := definitions ++ s.definitions }

variable (root : List Block) (definitions : List LinkDefinition)

@[simp] theorem below_frames (s : State) : (s.below root definitions).frames = s.frames := rfl

@[simp] theorem below_leaf (s : State) : (s.below root definitions).leaf = s.leaf := rfl

theorem nested_below {s : State} : (s.below root definitions).Nested ↔ s.Nested := by
  constructor <;> rintro (holds | ⟨innermost, around, leafless⟩)
  all_goals first | exact .block holds | exact .list innermost around leafless

theorem add_below (s : State) (block : Block) :
    (s.below root definitions).add block = (s.add block).below root definitions := by
  obtain ⟨_, _ | ⟨_ | _ | _, frames⟩, _, _, _⟩ := s <;> rfl

theorem closeLeaf_below (s : State) :
    (s.below root definitions).closeLeaf = s.closeLeaf.below root definitions := by
  rw [closeLeaf, closeLeaf, below_leaf]
  cases s.leaf with
  | none => rfl
  | some leaf => exact add_below root definitions { s with leaf := none } _

theorem closeFrame_below (s : State) :
    (s.below root definitions).closeFrame = s.closeFrame.below root definitions := by
  rw [closeFrame, closeFrame, below_frames]
  split
  · rfl
  · exact add_below root definitions { s with frames := _ } _
  · exact add_below root definitions { s with frames := _ } _
  · rfl
  · rfl

theorem closeFrames_below (s : State) (n : Nat) :
    (s.below root definitions).closeFrames n = (s.closeFrames n).below root definitions := by
  induction n generalizing s with
  | zero => rfl
  | succ n ih => rw [closeFrames, closeFrames, closeLeaf_below, closeFrame_below, ih]

theorem loosen_below (s : State) :
    (s.below root definitions).loosen = s.loosen.below root definitions := by
  obtain ⟨_, frames, _, _ | _, _⟩ := s
  · rfl
  · rcases frames with _ | ⟨_ | _ | _, _ | ⟨_ | _ | _, _⟩⟩ <;> rfl

theorem closeList_below (s : State) :
    (match (s.below root definitions).frames with
      | .list .. :: _ => (s.below root definitions).closeFrame
      | _ => s.below root definitions) =
    (match s.frames with
      | .list .. :: _ => s.closeFrame
      | _ => s).below root definitions := by
  rw [below_frames]
  split
  · exact closeFrame_below root definitions s
  · rfl

theorem beginBlock_below (s : State) (unmatched : Nat) :
    (s.below root definitions).beginBlock unmatched =
      (s.beginBlock unmatched).below root definitions := by
  rw [beginBlock, beginBlock, closeFrames_below, closeLeaf_below]
  exact (congrArg loosen (closeList_below root definitions _)).trans (loosen_below ..)

theorem beginItem_below (s : State) (unmatched : Nat) (marker : Marker) (width : Nat) :
    (s.below root definitions).beginItem unmatched marker width =
      (s.beginItem unmatched marker width).below root definitions := by
  rw [beginItem, beginItem, closeFrames_below, closeLeaf_below, below_frames]
  split
  · split
    · rfl
    · rw [closeFrame_below, loosen_below]
      rfl
  · rw [loosen_below]
    rfl

theorem blankLine_below (s : State) (unmatched : Nat) :
    (s.below root definitions).blankLine unmatched =
      (s.blankLine unmatched).below root definitions := by
  rw [blankLine, blankLine, closeFrames_below, closeLeaf_below, below_frames]
  split <;> rfl

end State

/-! ## Looking ahead -/

theorem dropColumns_rest (n : Nat) (c : Cursor) : (c.dropColumns n).rest <:+ c.rest := by
  fun_induction Cursor.dropColumns n c with
  | case1 => exact List.suffix_refl _
  | case2 _ _ _ _ ih => exact ih
  | case3 _ _ _ ih | case4 _ _ _ ih => exact ih.trans (List.suffix_cons _ _)
  | case5 => exact List.suffix_refl _

theorem dropBlanks_rest (c : Cursor) : c.dropBlanks.rest <:+ c.rest := dropColumns_rest _ c

theorem drop_rest (n : Nat) (c : Cursor) : (c.drop n).rest <:+ c.rest := List.drop_suffix n c.rest

theorem enter?_rest {bare : Bool} {c d : Cursor} {frame : Frame}
    (h : frame.enter? bare c = some d) : d.rest <:+ c.rest := by
  cases frame with
  | quote children =>
    simp only [Frame.enter?] at h
    split at h
    · split at h
      · cases h
        exact (dropColumns_rest _ _).trans ((drop_rest _ _).trans (dropBlanks_rest c))
      · cases h
    · cases h
  | list =>
    cases h
    exact List.suffix_refl _
  | item width children =>
    simp only [Frame.enter?] at h
    repeat' split at h
    all_goals cases h
    · exact dropBlanks_rest c
    · exact dropColumns_rest _ c

theorem enterFrames_rest (leafless : Bool) (c : Cursor) (frames : List Frame) :
    (enterFrames leafless c frames).2.rest <:+ c.rest := by
  induction frames generalizing c with
  | nil => exact List.suffix_refl _
  | cons frame frames ih =>
    rw [enterFrames]
    split
    · rename_i entered
      exact (ih _).trans (enter?_rest entered)
    · exact List.suffix_refl _

theorem takeWhile_append_stop {α : Type} {p : α → Bool} {a : α} (stop : p a = false)
    (front back : List α) : (front ++ a :: back).takeWhile p = front.takeWhile p := by
  induction front with
  | nil => simp [stop]
  | cons b front ih => simp only [List.cons_append, List.takeWhile_cons, ih]

/-- A paragraph ends at a blank line. -/
theorem paragraphLines_blank (frames : List Frame) (first : List Char)
    (next behind : List (List Char)) :
    paragraphLines frames first (next ++ [] :: behind) = paragraphLines frames first next := by
  have blank : (enterFrames false (Cursor.ofLine []) frames.reverse).2.isBlank = true := by
    have rest := enterFrames_rest false (Cursor.ofLine []) frames.reverse
    rw [Cursor.isBlank, List.suffix_nil.mp rest]
    rfl
  rw [paragraphLines, List.map_append, List.map_cons, takeWhile_append_stop (by simp [blank])]
  rfl

theorem leadingDefinition?_blank (frames : List Frame) (first : List Char)
    (next behind : List (List Char)) :
    leadingDefinition? frames first (next ++ [] :: behind) =
      leadingDefinition? frames first next := by
  rw [leadingDefinition?, leadingDefinition?, paragraphLines_blank]

theorem countP_joined {lines : List (List Char)} (whole : ∀ line ∈ lines, '\n' ∉ line) :
    (State.joined lines.reverse).countP (· == '\n') = lines.length := by
  rw [State.joined, List.reverse_reverse]
  induction lines with
  | nil => rfl
  | cons line lines ih =>
    rw [List.forall_mem_cons] at whole
    have none : line.countP (· == '\n') = 0 := by
      rw [List.countP_eq_zero]
      intro c member same
      exact whole.1 (beq_iff_eq.mp same ▸ member)
    simp [List.flatMap_cons, List.countP_append, none, ih whole.2]

theorem not_mem_of_suffix {part line : List Char} (h : part <:+ line) (whole : '\n' ∉ line) :
    '\n' ∉ part := fun member => whole (h.subset member)

/-- A definition takes no more lines than the paragraph that it starts has. -/
theorem leadingDefinition?_count {frames : List Frame} {first : List Char}
    {next : List (List Char)} (firstWhole : '\n' ∉ first) (whole : ∀ line ∈ next, '\n' ∉ line)
    {definition : LinkDefinition} {count : Nat}
    (h : leadingDefinition? frames first next = some (definition, count)) :
    count ≤ next.length + 1 := by
  rw [leadingDefinition?] at h
  split at h
  · obtain ⟨⟨d, rest⟩, -, same⟩ := Option.map_eq_some_iff.mp h
    cases same
    have inside : ∀ line ∈ paragraphLines frames first next, '\n' ∉ line := by
      rw [paragraphLines, List.forall_mem_cons, List.forall_mem_map]
      refine ⟨firstWhole, fun entered member => ?_⟩
      obtain ⟨line, here, rfl⟩ := List.mem_map.mp ((List.takeWhile_sublist _).subset member)
      exact not_mem_of_suffix ((dropBlanks_rest _).trans (enterFrames_rest _ _ _)) (whole line here)
    refine Nat.le_trans ((List.take_sublist _ _).countP_le) ?_
    rw [countP_joined inside, paragraphLines, List.length_cons, List.length_map]
    have shorter := (List.takeWhile_sublist (l := next.map fun line =>
      enterFrames false (Cursor.ofLine line) frames.reverse)
      fun x : Nat × Cursor => x.1 == 0 && !x.2.isBlank).length_le
    rw [List.length_map] at shorter
    exact Nat.succ_le_succ shorter
  · cases h

/-! ## Reading in front of a blank line -/

/-- What is read behind other blocks is what is read without them, it takes no more lines than
there are, and it leaves the containers as they should be. -/
structure Follows (root : List Block) (definitions : List LinkDefinition) (count : Nat)
    (alone behind : State × Nat) : Prop where
  same : behind = (alone.1.below root definitions, alone.2)
  count_le : alone.2 ≤ count
  nested : alone.1.Nested

variable (root : List Block) (definitions : List LinkDefinition) {next : List (List Char)}
  (later : List (List Char))

open State

/-- A leaf is open in the innermost container. -/
theorem State.Nested.holdsBlocks {s : State} (nested : s.Nested) {leaf : Leaf}
    (here : s.leaf = some leaf) : HoldsBlocks s.frames := by
  cases nested with
  | block holds => exact holds
  | list _ _ leafless => cases leafless.symm.trans here

theorem ofLine?_length {cs : List Char} {marker : Marker} {length : Nat}
    (h : Marker.ofLine? cs = some (marker, length)) : 0 < length := by
  simp only [Marker.ofLine?] at h
  repeat' split at h
  all_goals cases h
  · exact Nat.one_pos
  · exact Nat.succ_pos _

theorem readRest_follows (whole : ∀ line ∈ next, '\n' ∉ line) {fuel : Nat} {s : State}
    (nested : s.Nested) {unmatched : Nat} {c : Cursor} (here : '\n' ∉ c.rest) :
    Follows root definitions next.length (readRest (next ++ [[]]) fuel s unmatched c)
      (readRest (next ++ [] :: later) fuel (s.below root definitions) unmatched c) := by
  induction fuel generalizing s unmatched c with
  | zero => exact ⟨rfl, Nat.zero_le _, nested⟩
  | succ fuel ih =>
    have begun := nested.beginBlock unmatched
    have continued {lines : List (List Char)} (paragraph : s.leaf = some (.paragraph lines)) :
        Follows root definitions next.length
          ({ s with leaf := some (.paragraph (c.dropBlanks.rest :: lines)) }, 0)
          ({ s.below root definitions with
            leaf := some (.paragraph (c.dropBlanks.rest :: lines)) }, 0) :=
      ⟨rfl, Nat.zero_le _, .block (nested.holdsBlocks paragraph)⟩
    rw [readRest, readRest, below_leaf]
    dsimp only
    simp only [beginBlock_below, beginItem_below, blankLine_below, add_below]
    -- both runs take the same branch; only a new paragraph looks at the lines ahead
    split
    · exact ⟨rfl, Nat.zero_le _, nested.blankLine unmatched⟩
    -- indented: more of a paragraph, or code
    split
    · split
      · rename_i paragraph
        split at paragraph
        · cases paragraph
          exact continued ‹_›
        · cases paragraph
      · exact ⟨rfl, Nat.zero_le _, .block begun⟩
    -- a quote, a heading, a fence
    split
    · refine ih (s := { s.beginBlock unmatched with frames := .quote [] :: _ })
        (.block (.quote [] begun)) (not_mem_of_suffix ?_ here)
      exact (dropColumns_rest _ _).trans ((drop_rest _ _).trans (dropBlanks_rest c))
    split
    · exact ⟨rfl, Nat.zero_le _, .block (holdsBlocks_add begun _)⟩
    split
    · exact ⟨rfl, Nat.zero_le _, .block begun⟩
    -- HTML, which may end on the line that it starts on
    split
    · split
      · rename_i word _
        let opened : State :=
          { s.beginBlock unmatched with leaf := some (.html (.atText word) [c.text]) }
        have nested : opened.Nested := .block begun
        split
        · exact ⟨congrArg (·, 0) (closeLeaf_below root definitions opened), Nat.zero_le _,
            nested.closeLeaf⟩
        · exact ⟨rfl, Nat.zero_le _, nested⟩
      · exact ⟨rfl, Nat.zero_le _, .block begun⟩
    -- a paragraph that its underline makes a heading
    split
    · rename_i paragraph _
      obtain ⟨paragraph, -⟩ := Option.filter_eq_some_iff.mp paragraph
      split at paragraph
      · cases paragraph
        have holds : HoldsBlocks ({ s with leaf := none } : State).frames :=
          nested.holdsBlocks ‹_›
        exact ⟨congrArg (·, 0) (add_below root definitions { s with leaf := none } _),
          Nat.zero_le _, .block (holdsBlocks_add holds _)⟩
      · cases paragraph
    -- a rule, an item
    split
    · exact ⟨rfl, Nat.zero_le _, .block (holdsBlocks_add begun _)⟩
    split
    · rename_i marker length found
      obtain ⟨found, -⟩ := Option.filter_eq_some_iff.mp found
      have item := nested.beginItem unmatched marker (show 0 < c.indent + length +
        markerBlanks (c.dropBlanks.drop length) by have := ofLine?_length found; omega)
      split
      · exact ⟨rfl, Nat.zero_le _, .block item⟩
      · refine ih (.block item) (not_mem_of_suffix ?_ here)
        exact (dropColumns_rest _ _).trans ((drop_rest _ _).trans (dropBlanks_rest c))
    -- text: more of a paragraph, a definition, or a new paragraph
    split
    · rename_i paragraph
      split at paragraph
      · cases paragraph
        exact continued ‹_›
      · cases paragraph
    · rw [leadingDefinition?_blank, below_frames, leadingDefinition?_blank]
      split
      · rename_i found
        have count := leadingDefinition?_count (not_mem_of_suffix (dropBlanks_rest c) here)
          whole found
        exact ⟨by simp [below], by simpa using count, .block begun⟩
      · exact ⟨rfl, Nat.zero_le _, .block begun⟩

/-- What is left of a blank line is blank. -/
theorem readRest_blank {c : Cursor} (blank : c.isBlank = true) (next : List (List Char))
    (fuel : Nat) (s : State) (unmatched : Nat) :
    readRest next (fuel + 1) s unmatched c = (s.blankLine unmatched, 0) := by
  rw [readRest]
  exact if_pos blank

/-- A line is read alike behind other blocks if what its containers leave of it is. -/
theorem readLine_follows_of_rest {count : Nat} {line : List Char} {next next' : List (List Char)}
    {s : State} (nested : s.Nested)
    (rest : ∀ unmatched c,
      enterFrames s.leaf.isNone (Cursor.ofLine line) s.frames.reverse = (unmatched, c) →
        Follows root definitions count (readRest next (line.length + 2) s unmatched c)
          (readRest next' (line.length + 2) (s.below root definitions) unmatched c)) :
    Follows root definitions count (readLine s line next)
      (readLine (s.below root definitions) line next') := by
  rcases entered : enterFrames s.leaf.isNone (Cursor.ofLine line) s.frames.reverse
    with ⟨unmatched, c⟩
  have other := rest unmatched c entered
  rw [readLine, readLine, below_leaf, below_frames, entered]
  dsimp only
  split
  · exact other
  have grown {leaf : Leaf} (here : s.leaf = some leaf) (later : Leaf) :
      ({ s with leaf := some later } : State).Nested := .block (nested.holdsBlocks here)
  split
  · split
    · exact ⟨congrArg (·, 0) (closeLeaf_below root definitions s), Nat.zero_le _,
        nested.closeLeaf⟩
    · exact ⟨rfl, Nat.zero_le _, grown ‹_› _⟩
  · split
    · exact ⟨rfl, Nat.zero_le _, .block (nested.holdsBlocks ‹_›)⟩
    · exact other
  · rename_i word lines here
    split
    · exact ⟨congrArg (·, 0) (closeLeaf_below root definitions
        { s with leaf := some (.html (.atText word) (c.text :: lines)) }), Nat.zero_le _,
        (grown here _).closeLeaf⟩
    · exact ⟨rfl, Nat.zero_le _, grown here _⟩
  · split
    · exact other
    · exact ⟨rfl, Nat.zero_le _, grown ‹_› _⟩
  · exact other

theorem readLine_follows {line : List Char} (here : '\n' ∉ line)
    (whole : ∀ line ∈ next, '\n' ∉ line) {s : State} (nested : s.Nested) :
    Follows root definitions next.length (readLine s line (next ++ [[]]))
      (readLine (s.below root definitions) line (next ++ [] :: later)) := by
  refine readLine_follows_of_rest root definitions nested fun unmatched c entered => ?_
  have rest := enterFrames_rest s.leaf.isNone (Cursor.ofLine line) s.frames.reverse
  rw [entered] at rest
  exact readRest_follows root definitions later whole nested (not_mem_of_suffix rest here)

theorem readLine_blank_follows {s : State} (nested : s.Nested) :
    Follows root definitions 0 (readLine s [] [])
      (readLine (s.below root definitions) [] later) := by
  refine readLine_follows_of_rest root definitions nested fun unmatched c entered => ?_
  have rest := enterFrames_rest s.leaf.isNone (Cursor.ofLine []) s.frames.reverse
  rw [entered] at rest
  have blank : c.isBlank = true := by
    rw [Cursor.isBlank, List.suffix_nil.mp rest]
    rfl
  rw [readRest_blank blank, readRest_blank blank, blankLine_below]
  exact ⟨rfl, Nat.le_refl _, nested.blankLine unmatched⟩

/-- Lines in front of a blank line are read as they are by themselves, whatever is complete before
them and whatever follows the blank line. -/
theorem readLines_follows (whole : ∀ line ∈ next, '\n' ∉ line) {skip : Nat}
    (skips : skip ≤ next.length) {s : State} (nested : s.Nested) :
    readLines (s.below root definitions) skip (next ++ [] :: later) =
        readLines ((readLines s skip (next ++ [[]])).below root definitions) 0 later ∧
      (readLines s skip (next ++ [[]])).Nested := by
  -- a definition never reaches over the blank line, so nothing is left to skip behind it
  induction next generalizing skip s with
  | nil =>
    obtain rfl : skip = 0 := Nat.le_zero.mp skips
    have blank := readLine_blank_follows root definitions later nested
    rw [List.nil_append, List.nil_append, readLines, readLines, blank.same]
    dsimp only
    rw [Nat.le_zero.mp blank.count_le]
    exact ⟨rfl, blank.nested⟩
  | cons line next ih =>
    rw [List.forall_mem_cons] at whole
    cases skip with
    | succ skip =>
      rw [List.cons_append, List.cons_append, readLines, readLines]
      exact ih whole.2 (Nat.le_of_succ_le_succ skips) nested
    | zero =>
      have first := readLine_follows root definitions later whole.1 whole.2 nested
      rw [List.cons_append, List.cons_append, readLines, readLines, first.same]
      exact ih whole.2 first.count_le first.nested

end SchemaCompiler.Commonmark
