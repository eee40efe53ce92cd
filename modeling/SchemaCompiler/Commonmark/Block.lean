import SchemaCompiler.Commonmark.Inline
import SchemaCompiler.Commonmark.Line

/-!
Blocks: paragraphs, headings, code, rules, HTML, quotes and lists.

A text is read line by line. Each line first goes through the quotes and list items that are open,
then may open others or start a new leaf, and what is left goes to the open leaf.
-/

namespace SchemaCompiler.Commonmark

inductive Block where
  | paragraph (text : List Char)
  | heading (level : Nat) (text : List Char)
  /-- Code, with the words behind the opening fence if there was one. -/
  | code (info : Option (List Char)) (text : List Char)
  | html (text : List Char)
  | rule
  | quote (children : List Block)
  /-- A list; `start` is the number of its first item if the items are numbered. -/
  | list (start : Option Nat) (tight : Bool) (items : List (List Block))
deriving Repr, Inhabited

/-! ## Recognizing what a line starts -/

/-- Three or more marks of one kind with nothing but blanks between them. -/
def isRule (cs : List Char) : Bool :=
  match cs with
  | c :: _ =>
    (c == '*' || c == '-' || c == '_') && cs.all (fun d => d == c || isSpace d) &&
      3 ≤ (cs.filter (· == c)).length
  | [] => false

/-- The text of a heading without blanks and closing marks at its end. -/
def headingText (cs : List Char) : List Char :=
  let cs := Text.trimBy isSpace cs
  match cs.reverse.dropWhile (· == '#') with
  | [] => []
  | c :: front => if isSpace c then (front.dropWhile isSpace).reverse else cs

/-- A heading behind one to six marks. -/
def heading? (cs : List Char) : Option Block :=
  let level := (cs.takeWhile (· == '#')).length
  let rest := cs.drop level
  if 1 ≤ level ∧ level ≤ 6 ∧ (rest.head?.map isSpace).getD true then
    some (.heading level (headingText rest))
  else none

/-- The level of the heading that an underline makes of the paragraph above it. -/
def underline? (cs : List Char) : Option Nat :=
  match cs with
  | c :: _ =>
    if (c = '=' ∨ c = '-') ∧ (cs.dropWhile (· == c)).all isSpace then
      some (if c = '=' then 1 else 2)
    else none
  | [] => none

/-- The mark and the length of a fence, and the words behind it. -/
def fence? (cs : List Char) : Option (Char × Nat × List Char) :=
  match cs with
  | c :: _ =>
    let length := (cs.takeWhile (· == c)).length
    let info := cs.drop length
    if (c = '`' ∨ c = '~') ∧ 3 ≤ length ∧ ¬(c = '`' ∧ info.contains '`') then
      some (c, length, unescape (Text.trimBy isSpace info))
    else none
  | [] => none

/-- Whether a line closes a fence of `length` marks. -/
def closesFence (mark : Char) (length : Nat) (cs : List Char) : Bool :=
  length ≤ (cs.takeWhile (· == mark)).length && (cs.dropWhile (· == mark)).all isSpace

/-- What starts an item of a list: a bullet, or a number and the mark behind it. -/
inductive Marker where
  | bullet (mark : Char)
  | number (mark : Char) (value : Nat)
deriving DecidableEq, Repr

namespace Marker

/-- Whether two items belong to one list. -/
def continues : Marker → Marker → Bool
  | bullet a, bullet b => a == b
  | number a _, number b _ => a == b
  | _, _ => false

def start? : Marker → Option Nat
  | bullet _ => none
  | number _ value => some value

/-- A marker and its length. A blank or the end of the line follows it. -/
def ofLine? (cs : List Char) : Option (Marker × Nat) :=
  let ends (rest : List Char) : Bool := (rest.head?.map isSpace).getD true
  match cs with
  | [] => none
  | c :: rest =>
    if c = '-' ∨ c = '+' ∨ c = '*' then
      if ends rest then some (.bullet c, 1) else none
    else
      let digits := cs.takeWhile isDigit
      match digits, cs.dropWhile isDigit with
      | _ :: _, mark :: rest =>
        if digits.length ≤ 9 ∧ (mark = '.' ∨ mark = ')') ∧ ends rest then
          some (.number mark (Entity.decimalNumber digits), digits.length + 1)
        else none
      | _, _ => none

end Marker

/-! ## The state between lines -/

/-- The leaf that is open, with its lines back to front. -/
inductive Leaf where
  | paragraph (lines : List (List Char))
  | fenced (mark : Char) (length indent : Nat) (info : List Char) (lines : List (List Char))
  | indented (lines : List (List Char))
  | html (blockEnd : Tag.BlockEnd) (lines : List (List Char))
deriving Repr

/-- A container that is open, with its children back to front. -/
inductive Frame where
  | quote (children : List Block)
  | list (marker : Marker) (loose : Bool) (items : List (List Block))
  /-- An item, whose lines are indented by `width` columns. -/
  | item (width : Nat) (children : List Block)
deriving Repr

structure State where
  /-- The blocks that are complete, back to front. -/
  root : List Block
  /-- The open containers, innermost first. -/
  frames : List Frame
  leaf : Option Leaf
  /-- Whether a blank line came last that may part two blocks of a list. -/
  parted : Bool
  definitions : List LinkDefinition
deriving Repr

namespace State

def empty : State := ⟨[], [], none, false, []⟩

/-- Puts a complete block into the innermost container. -/
def add (s : State) (block : Block) : State :=
  match s.frames with
  | [] => { s with root := block :: s.root }
  | .quote children :: frames => { s with frames := .quote (block :: children) :: frames }
  | .item width children :: frames => { s with frames := .item width (block :: children) :: frames }
  | .list .. :: _ => s

/-- Lines with an end behind each. -/
def joined (lines : List (List Char)) : List Char := lines.reverse.flatMap (· ++ ['\n'])

/-- The text of a paragraph without the blanks at its end. -/
def paragraphText (lines : List (List Char)) : List Char :=
  ((joined lines).reverse.dropWhile isWhitespace).reverse

def leafBlock : Leaf → Block
  | .paragraph lines => .paragraph (paragraphText lines)
  | .fenced _ _ _ info lines => .code (some info) (joined lines)
  | .indented lines => .code none (joined (lines.dropWhile (·.all isSpace)))
  | .html _ lines => .html (joined lines)

def closeLeaf (s : State) : State :=
  match s.leaf with
  | none => s
  | some leaf => { s with leaf := none }.add (leafBlock leaf)

/-- Closes the innermost container. -/
def closeFrame (s : State) : State :=
  match s.frames with
  | [] => s
  | .quote children :: frames => { s with frames := frames }.add (.quote children.reverse)
  | .list marker loose items :: frames =>
    { s with frames := frames }.add (.list marker.start? (!loose) items.reverse)
  | .item _ children :: .list marker loose items :: frames =>
    { s with frames := .list marker loose (children.reverse :: items) :: frames }
  | .item _ _ :: frames => { s with frames := frames }

/-- Closes the `n` innermost containers and the leaf inside them. -/
def closeFrames (s : State) : (n : Nat) → State
  | 0 => s
  | n + 1 => (s.closeLeaf.closeFrame).closeFrames n

/-- Notes that two items, or two blocks of an item, have a blank line between them. -/
def loosen (s : State) : State :=
  if s.parted then
    match s.frames with
    | .item width children :: .list marker _ items :: frames =>
      { s with
        parted := false, frames := .item width children :: .list marker true items :: frames }
    | _ => { s with parted := false }
  else s

/-- Gets ready for a block: a list that stands open takes nothing but items. -/
def beginBlock (s : State) (unmatched : Nat) : State :=
  let s := (s.closeFrames unmatched).closeLeaf
  let s := match s.frames with
    | .list .. :: _ => s.closeFrame
    | _ => s
  s.loosen

/-- Opens an item, in the list that stands open if the marker continues it. -/
def beginItem (s : State) (unmatched : Nat) (marker : Marker) (width : Nat) : State :=
  let s := (s.closeFrames unmatched).closeLeaf
  match s.frames with
  | .list other loose items :: frames =>
    if other.continues marker then
      { s with
        parted := false
        frames := .item width [] :: .list other (loose || s.parted) items :: frames }
    else
      let s := s.closeFrame.loosen
      { s with parted := false, frames := .item width [] :: .list marker false [] :: s.frames }
  | _ =>
    let s := s.loosen
    { s with parted := false, frames := .item width [] :: .list marker false [] :: s.frames }

/-- A blank line ends a paragraph. It parts blocks unless it stands in a quote. -/
def blankLine (s : State) (unmatched : Nat) : State :=
  let s := (s.closeFrames unmatched).closeLeaf
  match s.frames with
  | .quote _ :: _ => s
  | _ => { s with parted := true }

end State

/-! ## Going through the open containers -/

/-- Goes through a container, if the line belongs to it. A blank line belongs to any item but a
`bare` one, which has no content. -/
def Frame.enter? (bare : Bool) (c : Cursor) : Frame → Option Cursor
  | .list .. => some c
  | .quote _ =>
    if c.indent < 4 then
      match c.dropBlanks.rest with
      | '>' :: _ => some ((c.dropBlanks.drop 1).dropColumns 1)
      | _ => none
    else none
  | .item width children =>
    if c.isBlank then if bare && children.isEmpty then none else some c.dropBlanks
    else if width ≤ c.indent then some (c.dropColumns width)
    else none

/-- Goes through containers, given from the outermost inwards, as far as possible. Tells how many
are left. `leafless` tells that no leaf is open. -/
def enterFrames (leafless : Bool) (c : Cursor) : List Frame → Nat × Cursor
  | [] => (0, c)
  | frame :: frames =>
    match frame.enter? (leafless && frames.isEmpty) c with
    | some c => enterFrames leafless c frames
    | none => (frames.length + 1, c)

/-! ## Reading lines -/

/-- The lines of the paragraph that starts with `first`: those behind it that stay inside all open
containers and are not blank. -/
def paragraphLines (frames : List Frame) (first : List Char) (next : List (List Char)) :
    List (List Char) :=
  first ::
    ((next.map fun line => enterFrames false (Cursor.ofLine line) frames.reverse).takeWhile
      fun (unmatched, c) => unmatched == 0 && !c.isBlank).map fun (_, c) => c.dropBlanks.rest

/-- The link definitions at the start of a paragraph and the number of lines they take. -/
def leadingDefinition? (frames : List Frame) (first : List Char) (next : List (List Char)) :
    Option (LinkDefinition × Nat) :=
  if first.head? = some '[' then
    let lines := paragraphLines frames first next
    let text := State.joined lines.reverse
    (linkDefinition? text).map fun (definition, rest) =>
      (definition,
        (text.take (text.length - rest.length)).countP (· == '\n'))
  else none

/-- The blanks behind a marker that belong to it: one to four, or a single one in front of indented
code or at the end of the line. -/
def markerBlanks (c : Cursor) : Nat :=
  if c.isBlank then 1 else if c.indent ≤ 4 then c.indent else 1

/-- Whether an item may start here. Inside a paragraph it needs content, and a number has to be
one. -/
def mayInterrupt (marker : Marker) (behind : Cursor) : Bool :=
  !behind.isBlank &&
    match marker with
    | .bullet _ => true
    | .number _ value => value == 1

/-- Reads the rest of a line whose containers were entered, all but `unmatched`. Answers with the
number of lines behind it that were read as well. `fuel` bounds the number of containers that the
line opens; the length of the line is enough. -/
def readRest (next : List (List Char)) :
    (fuel : Nat) → State → (unmatched : Nat) → Cursor → State × Nat
  | 0, s, _, _ => (s, 0)
  | fuel + 1, s, unmatched, c =>
    let open? : Option (List (List Char)) :=
      match s.leaf with
      | some (.paragraph lines) => some lines
      | _ => none
    let inner := open?.isSome && unmatched == 0
    let body := c.dropBlanks.rest
    if c.isBlank then (s.blankLine unmatched, 0)
    else if 4 ≤ c.indent then
      match open? with
      | some lines => ({ s with leaf := some (.paragraph (body :: lines)) }, 0)
      | none =>
        ({ s.beginBlock unmatched with leaf := some (.indented [(c.dropColumns 4).text]) }, 0)
    else if body.head? = some '>' then
      let s := s.beginBlock unmatched
      readRest next fuel { s with frames := .quote [] :: s.frames } 0
        ((c.dropBlanks.drop 1).dropColumns 1)
    else
      match heading? body with
      | some block => ((s.beginBlock unmatched).add block, 0)
      | none =>
      match fence? body with
      | some (mark, length, info) =>
        ({ s.beginBlock unmatched with leaf := some (.fenced mark length c.indent info []) }, 0)
      | none =>
      match (after? ['<'] body).bind (Tag.blockEnd? open?.isSome) with
      | some blockEnd =>
        let s := s.beginBlock unmatched
        let s := { s with leaf := some (.html blockEnd [c.text]) }
        match blockEnd with
        | .atText word => (if (splitAtWord? word body).isSome then s.closeLeaf else s, 0)
        | .atBlank => (s, 0)
      | none =>
      match open?.filter (fun _ => inner), underline? body with
      | some lines, some level =>
        ({ s with leaf := none }.add (.heading level (State.paragraphText lines)), 0)
      | _, _ =>
      if isRule body then ((s.beginBlock unmatched).add .rule, 0)
      else
      match (Marker.ofLine? body).filter fun (marker, length) =>
          !inner || mayInterrupt marker (c.dropBlanks.drop length) with
      | some (marker, length) =>
        let behind := c.dropBlanks.drop length
        let blanks := markerBlanks behind
        let s := s.beginItem unmatched marker (c.indent + length + blanks)
        if behind.isBlank then (s, 0) else readRest next fuel s 0 (behind.dropColumns blanks)
      | none =>
      match open? with
      | some lines => ({ s with leaf := some (.paragraph (body :: lines)) }, 0)
      | none =>
        let s := s.beginBlock unmatched
        match leadingDefinition? s.frames body next with
        | some (definition, count) =>
          ({ s with definitions := s.definitions ++ [definition] }, count - 1)
        | none => ({ s with leaf := some (.paragraph [body]) }, 0)

/-- Reads a line. A leaf that is no paragraph takes the lines inside its containers as they are,
until its end. -/
def readLine (s : State) (line : List Char) (next : List (List Char)) : State × Nat :=
  let (unmatched, c) := enterFrames s.leaf.isNone (Cursor.ofLine line) s.frames.reverse
  let other : State × Nat := readRest next (line.length + 2) s unmatched c
  if unmatched ≠ 0 then other
  else
    match s.leaf with
    | some (.fenced mark length indent info lines) =>
      let c := c.dropColumns indent
      if c.indent < 4 ∧ closesFence mark length c.dropBlanks.rest then (s.closeLeaf, 0)
      else ({ s with leaf := some (.fenced mark length indent info (c.text :: lines)) }, 0)
    | some (.indented lines) =>
      if c.isBlank ∨ 4 ≤ c.indent then
        let leaf : Leaf := .indented ((c.dropColumns 4).text :: lines)
        ({ s with leaf := some leaf, parted := c.isBlank }, 0)
      else other
    | some (.html (.atText word) lines) =>
      let s := { s with leaf := some (.html (.atText word) (c.text :: lines)) }
      (if (splitAtWord? word c.rest).isSome then s.closeLeaf else s, 0)
    | some (.html .atBlank lines) =>
      if c.isBlank then other
      else ({ s with leaf := some (.html .atBlank (c.text :: lines)) }, 0)
    | _ => other

/-- Reads lines; `skip` of them were read before. -/
def readLines (s : State) : (skip : Nat) → List (List Char) → State
  | _, [] => s
  | skip + 1, _ :: next => readLines s skip next
  | 0, line :: next =>
    let (s, skip) := readLine s line next
    readLines s skip next

/-- The blocks of a text and the link definitions in it. -/
def readBlocks (cs : List Char) : List Block × List LinkDefinition :=
  let s := readLines .empty 0 (lines cs)
  let s := (s.closeFrames s.frames.length).closeLeaf
  (s.root.reverse, s.definitions)

end SchemaCompiler.Commonmark
