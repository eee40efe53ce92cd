import SchemaCompiler.Commonmark.Html
import SchemaCompiler.Proofs.Commonmark.Lines
import SchemaCompiler.Proofs.Commonmark.Nesting

/-!
Writing blocks one after another.

Every block that is read ends its last line when it is written. So blocks that follow others are
written as they are by themselves.
-/

namespace SchemaCompiler.Commonmark

/-! ## Blocks that are read -/

/-- The block ends its last line when it is written. -/
def Block.IsWhole : Block → Prop
  | .html text => EndsLine text
  | _ => True

theorem endsLine_joined (lines : List (List Char)) : EndsLine (State.joined lines) := by
  cases lines with
  | nil => exact .inl rfl
  | cons line lines => exact .inr ⟨State.joined lines ++ line, by simp [State.joined]⟩

theorem isWhole_leafBlock (leaf : Leaf) : (State.leafBlock leaf).IsWhole := by
  cases leaf with
  | html => exact endsLine_joined _
  | _ => trivial

theorem isWhole_heading {cs : List Char} {block : Block} (h : heading? cs = some block) :
    block.IsWhole := by
  simp only [heading?] at h
  split at h
  · cases h
    trivial
  · cases h

namespace State

/-- All blocks that are complete are whole. -/
def Whole (s : State) : Prop := ∀ block ∈ s.root, block.IsWhole

variable {s : State}

theorem Whole.add (h : s.Whole) {block : Block} (whole : block.IsWhole) : (s.add block).Whole := by
  rw [State.add]
  split
  · exact List.forall_mem_cons.mpr ⟨whole, h⟩
  all_goals exact h

theorem Whole.closeLeaf (h : s.Whole) : s.closeLeaf.Whole := by
  rw [State.closeLeaf]
  split
  · exact h
  · exact Whole.add (s := { s with leaf := none }) h (isWhole_leafBlock _)

theorem Whole.closeFrame (h : s.Whole) : s.closeFrame.Whole := by
  rw [State.closeFrame]
  split
  · exact h
  · rename_i children frames _
    exact Whole.add (s := { s with frames }) h (trivial : (Block.quote children.reverse).IsWhole)
  · rename_i marker loose items frames _
    exact Whole.add (s := { s with frames }) h
      (trivial : (Block.list marker.start? (!loose) items.reverse).IsWhole)
  · exact h
  · exact h

theorem Whole.closeFrames (h : s.Whole) (n : Nat) : (s.closeFrames n).Whole := by
  induction n generalizing s with
  | zero => exact h
  | succ n ih => exact ih h.closeLeaf.closeFrame

theorem Whole.loosen (h : s.Whole) : s.loosen.Whole := by
  rw [State.loosen]
  split
  · split <;> exact h
  · exact h

theorem Whole.beginBlock (h : s.Whole) (unmatched : Nat) : (s.beginBlock unmatched).Whole := by
  have closed := (h.closeFrames unmatched).closeLeaf
  refine Whole.loosen ?_
  split
  · exact closed.closeFrame
  · exact closed

theorem Whole.beginItem (h : s.Whole) (unmatched : Nat) (marker : Marker) (width : Nat) :
    (s.beginItem unmatched marker width).Whole := by
  have closed := (h.closeFrames unmatched).closeLeaf
  rw [State.beginItem]
  split
  · split
    · exact closed
    · exact closed.closeFrame.loosen
  · exact closed.loosen

theorem Whole.blankLine (h : s.Whole) (unmatched : Nat) : (s.blankLine unmatched).Whole := by
  have closed := (h.closeFrames unmatched).closeLeaf
  rw [State.blankLine]
  split <;> exact closed

theorem Whole.readRest (h : s.Whole) (next : List (List Char)) (fuel unmatched : Nat)
    (c : Cursor) : (readRest next fuel s unmatched c).1.Whole := by
  induction fuel generalizing s unmatched c with
  | zero => exact h
  | succ fuel ih =>
    -- a line adds a heading or a rule, and otherwise only what closing adds
    have begun := h.beginBlock unmatched
    rw [Commonmark.readRest]
    dsimp only
    split
    · exact h.blankLine unmatched
    split
    · split
      · exact h
      · exact begun
    split
    · exact ih (s := { s.beginBlock unmatched with frames := .quote [] :: _ }) begun _ _
    split
    · rename_i heading
      exact begun.add (isWhole_heading heading)
    split
    · exact begun
    split
    · split
      · split
        · exact Whole.closeLeaf (s := { s.beginBlock unmatched with leaf := _ }) begun
        · exact begun
      · exact begun
    split
    · exact Whole.add (s := { s with leaf := none }) h trivial
    split
    · exact begun.add trivial
    split
    · rename_i marker length _
      have item := h.beginItem unmatched marker
        (c.indent + length + markerBlanks (c.dropBlanks.drop length))
      split
      · exact item
      · exact ih item _ _
    split
    · exact h
    · split
      · exact begun
      · exact begun

theorem Whole.readLine (h : s.Whole) (line : List Char) (next : List (List Char)) :
    (readLine s line next).1.Whole := by
  rw [Commonmark.readLine]
  have other := h.readRest next (line.length + 2)
  rcases enterFrames s.leaf.isNone (Cursor.ofLine line) s.frames.reverse with ⟨unmatched, c⟩
  dsimp only
  split
  · exact other _ _
  split
  · split
    · exact h.closeLeaf
    · exact h
  · split
    · exact h
    · exact other _ _
  · split
    · exact Whole.closeLeaf (s := { s with leaf := _ }) h
    · exact h
  · split
    · exact other _ _
    · exact h
  · exact other _ _

theorem Whole.readLines (h : s.Whole) (skip : Nat) (lines : List (List Char)) :
    (readLines s skip lines).Whole := by
  induction lines generalizing s skip with
  | nil => cases skip <;> exact h
  | cons line next ih =>
    cases skip with
    | zero => exact ih (h.readLine line next) _
    | succ skip => exact ih h skip

end State

/-- All blocks of a text are whole. -/
theorem isWhole_of_mem_readBlocks (cs : List Char) :
    ∀ block ∈ (readBlocks cs).1, block.IsWhole := by
  have empty : State.empty.Whole := by simp [State.Whole, State.empty]
  intro block member
  exact ((empty.readLines 0 (lines cs)).closeFrames _).closeLeaf block (List.mem_reverse.mp member)

/-! ## Writing behind a line -/

/-- Nothing was written, or the last line was ended. -/
def Written.AtLine (out : Written) : Prop := out = [] ∨ ∃ more, out = '\n' :: more

theorem Written.line_append {out : Written} (h : out.AtLine) (o : Written) :
    Written.line (o ++ out) = o.line ++ out := by
  cases o with
  | nil => rcases h with rfl | ⟨more, rfl⟩ <;> rfl
  | cons c o =>
    simp only [Written.line, List.cons_append]
    split <;> rfl

theorem Written.put_append (o out : Written) (cs : List Char) :
    Written.put (o ++ out) cs = o.put cs ++ out := by
  rw [Written.put, Written.put, List.append_assoc]

theorem Written.putString_append (o out : Written) (s : String) :
    Written.putString (o ++ out) s = o.putString s ++ out := Written.put_append o out _

theorem Written.atLine_put (out : Written) {cs : List Char} (ends : cs.getLast? = some '\n') :
    (out.put cs).AtLine := by
  obtain ⟨front, rfl⟩ := List.getLast?_eq_some_iff.mp ends
  exact .inr ⟨front.reverse ++ out, by simp [Written.put]⟩

variable (context : Context)

variable {out : Written}

mutual

/-- What stands in front of a block that starts on a line of its own has no part in its HTML. -/
theorem Block.write_behind (h : out.AtLine) (tight : Bool) (o : Written) : (block : Block) →
    block.write context tight (o ++ out) = block.write context tight o ++ out
  | .paragraph text => by
    rw [Block.write, Block.write]
    split
    · exact Written.put_append _ _ _
    · rw [Written.line_append h, Written.putString_append, Written.put_append,
        Written.putString_append]
  | .heading level text => by
    rw [Block.write, Block.write, Written.line_append h, Written.put_append]
  | .code info text => by
    rw [Block.write, Block.write, Written.line_append h, Written.put_append, Written.put_append,
      Written.putString_append]
  | .html text => by rw [Block.write, Block.write, Written.put_append]
  | .rule => by rw [Block.write, Block.write, Written.line_append h, Written.putString_append]
  | .quote children => by
    rw [Block.write, Block.write, Written.line_append h, Written.putString_append,
      writeBlocks_behind h, Written.putString_append]
  | .list start tight items => by
    rw [Block.write, Block.write, Written.line_append h, Written.putString_append,
      writeItems_behind h, Written.putString_append]

theorem writeBlocks_behind (h : out.AtLine) (tight : Bool) (o : Written) : (blocks : List Block) →
    writeBlocks context tight (o ++ out) blocks = writeBlocks context tight o blocks ++ out
  | [] => rfl
  | block :: blocks => by
    rw [writeBlocks, writeBlocks, Block.write_behind h tight o block,
      writeBlocks_behind h tight _ blocks]

theorem writeItems_behind (h : out.AtLine) (tight : Bool) (o : Written) :
    (items : List (List Block)) →
    writeItems context tight (o ++ out) items = writeItems context tight o items ++ out
  | [] => rfl
  | item :: items => by
    rw [writeItems, writeItems, Written.line_append h, Written.putString_append,
      writeBlocks_behind h tight _ item, Written.putString_append,
      writeItems_behind h tight _ items]

end

theorem Block.IsWhole.atLine_write (h : out.AtLine) {block : Block} (whole : block.IsWhole) :
    (block.write context false out).AtLine := by
  cases block with
  | html text =>
    rw [Block.write]
    rcases whole with rfl | ⟨front, rfl⟩
    · exact h
    · exact Written.atLine_put _ List.getLast?_concat
  | list start tight items =>
    rw [Block.write]
    split <;> exact Written.atLine_put _ rfl
  | heading level text =>
    rw [Block.write]
    exact Written.atLine_put _ (List.getLast?_append.trans rfl)
  | paragraph | code | rule | quote =>
    rw [Block.write]
    exact Written.atLine_put _ rfl

theorem atLine_writeBlocks (h : out.AtLine) {blocks : List Block}
    (whole : ∀ block ∈ blocks, block.IsWhole) :
    (writeBlocks context false out blocks).AtLine := by
  induction blocks generalizing out with
  | nil => exact h
  | cons block blocks ih =>
    rw [List.forall_mem_cons] at whole
    exact ih (whole.1.atLine_write context h) whole.2

theorem writeBlocks_append (tight : Bool) (o : Written) (front back : List Block) :
    writeBlocks context tight o (front ++ back) =
      writeBlocks context tight (writeBlocks context tight o front) back := by
  induction front generalizing o with
  | nil => rfl
  | cons block front ih => exact ih _

/-- Blocks as HTML. -/
def blocksToHtml (blocks : List Block) : List Char :=
  (writeBlocks context false [] blocks).reverse

/-- Blocks are written one after another. -/
theorem blocksToHtml_append {front : List Block} (whole : ∀ block ∈ front, block.IsWhole)
    (back : List Block) :
    blocksToHtml context (front ++ back) =
      blocksToHtml context front ++ blocksToHtml context back := by
  have first := atLine_writeBlocks context (.inl rfl : Written.AtLine []) whole
  have behind := writeBlocks_behind context first false [] back
  rw [List.nil_append] at behind
  rw [blocksToHtml, writeBlocks_append, behind, List.reverse_append]
  rfl

/-- A heading with a mark. -/
def headingHtml (level : Nat) (mark content : List Char) : List Char :=
  let tag := 'h' :: (toString level).toList
  '<' :: tag ++ " id=\"".toList ++ mark ++ "\">".toList ++ content ++
    "</".toList ++ tag ++ ">\n".toList

theorem blocksToHtml_heading (level : Nat) (text : List Char) :
    blocksToHtml context [.heading level text] =
      headingHtml level
        ((context.headingId (plainTexts (readInlines context.definitions text))).flatMap
          escapeAttribute)
        (inlinesToHtml (readInlines context.definitions text)) := by
  have alone (cs : List Char) : (Written.put (Written.line []) cs).reverse = cs := by
    rw [Written.line, Written.put, List.append_nil, List.reverse_reverse]
  rw [blocksToHtml, writeBlocks, writeBlocks, Block.write]
  exact alone _

end SchemaCompiler.Commonmark
