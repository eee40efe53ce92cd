import SchemaCompiler.Commonmark.Block

/-!
Open containers.

Between lines every list stands open through one of its items, or it stands open by itself and no
leaf does. Closing containers takes them from the inside outwards, and what was complete before
stays in front of what is completed.
-/

namespace SchemaCompiler.Commonmark

/-- The innermost container takes blocks, and every list is open through one of its items. -/
inductive HoldsBlocks : List Frame → Prop
  | root : HoldsBlocks []
  | quote {frames : List Frame} (children : List Block) (around : HoldsBlocks frames) :
    HoldsBlocks (.quote children :: frames)
  | item {frames : List Frame} {width : Nat} (indented : 0 < width) (children : List Block)
    (marker : Marker) (loose : Bool) (items : List (List Block)) (around : HoldsBlocks frames) :
    HoldsBlocks (.item width children :: .list marker loose items :: frames)

namespace State

/-- The state of containers between two lines. -/
inductive Nested (s : State) : Prop
  | block (holds : HoldsBlocks s.frames)
  | list {marker : Marker} {loose : Bool} {items : List (List Block)} {frames : List Frame}
    (innermost : s.frames = .list marker loose items :: frames) (around : HoldsBlocks frames)
    (leafless : s.leaf = none)

/-! ## What closing keeps -/

theorem add_leaf (s : State) (block : Block) : (s.add block).leaf = s.leaf := by
  rw [add]
  split <;> rfl

theorem closeFrame_leaf (s : State) : s.closeFrame.leaf = s.leaf := by
  rw [closeFrame]
  split <;> first | rfl | exact add_leaf _ _

theorem closeLeaf_leaf (s : State) : s.closeLeaf.leaf = none := by
  rw [closeLeaf]
  split
  · assumption
  · exact add_leaf _ _

theorem closeLeaf_of_none {s : State} (leafless : s.leaf = none) : s.closeLeaf = s := by
  rw [closeLeaf, leafless]

theorem holdsBlocks_add {s : State} (h : HoldsBlocks s.frames) (block : Block) :
    HoldsBlocks (s.add block).frames := by
  rw [add]
  split <;> rename_i same <;> rw [same] at h
  · rwa [same]
  · cases h with
    | quote _ around => exact .quote _ around
  · cases h with
    | item indented _ marker loose items around => exact .item indented _ marker loose items around
  · cases h

theorem holdsBlocks_closeLeaf {s : State} (h : HoldsBlocks s.frames) :
    HoldsBlocks s.closeLeaf.frames := by
  rw [closeLeaf]
  split
  · exact h
  · rename_i leaf _
    exact holdsBlocks_add (s := { s with leaf := none }) h (leafBlock leaf)

/-- Closing a list. -/
theorem holdsBlocks_closeFrame_list {s : State} {marker : Marker} {loose : Bool}
    {items : List (List Block)} {frames : List Frame}
    (innermost : s.frames = .list marker loose items :: frames) (around : HoldsBlocks frames) :
    HoldsBlocks s.closeFrame.frames := by
  rw [closeFrame, innermost]
  exact holdsBlocks_add (s := { s with frames }) around _

theorem Nested.closeLeaf {s : State} (h : s.Nested) : s.closeLeaf.Nested := by
  cases h with
  | block holds => exact .block (holdsBlocks_closeLeaf holds)
  | list innermost around leafless =>
    rw [closeLeaf_of_none leafless]
    exact .list innermost around leafless

theorem Nested.closeFrame {s : State} (h : s.Nested) (leafless : s.leaf = none) :
    s.closeFrame.Nested := by
  cases h with
  | block holds =>
    rw [State.closeFrame]
    split <;> rename_i same <;> rw [same] at holds
    · exact .block (same ▸ holds)
    · rename_i frames
      cases holds with
      | quote _ around => exact .block (holdsBlocks_add (s := { s with frames }) around _)
    · cases holds
    · cases holds with
      | item _ _ _ _ _ around => exact .list rfl around leafless
    · rename_i alone
      cases holds with
      | item => exact absurd rfl (alone _ _ _ _)
  | list innermost around _ => exact .block (holdsBlocks_closeFrame_list innermost around)

theorem Nested.closeFrames {s : State} (h : s.Nested) (n : Nat) : (s.closeFrames n).Nested := by
  induction n generalizing s with
  | zero => exact h
  | succ n ih => exact ih (h.closeLeaf.closeFrame s.closeLeaf_leaf)

/-! ## What beginning something keeps -/

theorem holdsBlocks_loosen {s : State} (h : HoldsBlocks s.frames) :
    HoldsBlocks s.loosen.frames := by
  rw [loosen]
  split
  · split
    · rename_i same
      rw [same] at h
      cases h with
      | item indented _ _ _ _ around => exact .item indented _ _ _ _ around
    · exact h
  · exact h

/-- A list that stands open is closed in front of a block. -/
theorem Nested.holdsBlocks_closeList {s : State} (h : s.Nested) :
    HoldsBlocks (match s.frames with
      | .list .. :: _ => s.closeFrame
      | _ => s).frames := by
  cases h with
  | block holds =>
    split
    · rename_i same
      rw [same] at holds
      cases holds
    · exact holds
  | list innermost around _ =>
    rw [innermost]
    exact holdsBlocks_closeFrame_list innermost around

theorem Nested.beginBlock {s : State} (h : s.Nested) (unmatched : Nat) :
    HoldsBlocks (s.beginBlock unmatched).frames :=
  holdsBlocks_loosen (h.closeFrames unmatched).closeLeaf.holdsBlocks_closeList

theorem Nested.beginItem {s : State} (h : s.Nested) (unmatched : Nat) (marker : Marker)
    {width : Nat} (indented : 0 < width) :
    HoldsBlocks (s.beginItem unmatched marker width).frames := by
  have closed := (h.closeFrames unmatched).closeLeaf
  rw [State.beginItem]
  split
  · rename_i same
    cases closed with
    | block holds =>
      rw [same] at holds
      cases holds
    | list innermost around _ =>
      cases same.symm.trans innermost
      split
      · exact .item indented _ _ _ _ around
      · refine .item indented _ _ _ _ (holdsBlocks_loosen ?_)
        exact holdsBlocks_closeFrame_list innermost around
  · rename_i other
    cases closed with
    | block holds => exact .item indented _ _ _ _ (holdsBlocks_loosen holds)
    | list innermost => exact absurd innermost (other _ _ _ _)

theorem Nested.blankLine {s : State} (h : s.Nested) (unmatched : Nat) :
    (s.blankLine unmatched).Nested := by
  have closed := (h.closeFrames unmatched).closeLeaf
  rw [State.blankLine]
  split
  · exact closed
  · cases closed with
    | block holds => exact .block holds
    | list innermost around leafless => exact .list innermost around leafless

end State

end SchemaCompiler.Commonmark
