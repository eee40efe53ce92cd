import SchemaCompiler.Commonmark.Link
import SchemaCompiler.Commonmark.Tag

/-!
The markup inside a paragraph or a heading.

Reading goes once from left to right and leaves pieces: finished markup, runs of `*` and `_`, and
brackets whose meaning is open. A closing bracket decides on the bracket that it closes; the runs
are paired inside each link and, at last, over the whole text.
-/

namespace SchemaCompiler.Commonmark

inductive Inline where
  | text (cs : List Char)
  | code (cs : List Char)
  /-- HTML that stands as it is. -/
  | html (cs : List Char)
  | softBreak
  | hardBreak
  | emphasis (children : List Inline)
  | strong (children : List Inline)
  | link (destination title : List Char) (children : List Inline)
  | mailLink (address : List Char)
  | image (destination title : List Char) (children : List Inline)
deriving Repr

/-- What was read and may still change. -/
inductive Piece where
  | done (inline : Inline)
  /-- A run of `length` marks of which `count` are left. -/
  | run (mark : Char) (length count : Nat) (opens closes : Bool)
  /-- An opening bracket and the text behind it. A bracket in front of a link is not active. -/
  | bracket (image active : Bool) (behind : List Char)

/-! ## Emphasis -/

def Piece.inline : Piece → Inline
  | done inline => inline
  | run mark _ count _ _ => .text (List.replicate count mark)
  | bracket image _ _ => .text (if image then ['!', '['] else ['['])

/-- `children` inside `count` marks on each side; pairs of marks lie inside single ones. -/
def wrap : (count : Nat) → List Inline → List Inline
  | 0, children => children
  | 1, children => [.emphasis children]
  | count + 2, children => wrap count [.strong children]

/-- Whether a run can be opened by one and closed by another: where one of them could do both,
their lengths must not add up to a multiple of three, unless both are such multiples. -/
def pairs (openLength : Nat) (openBoth : Bool) (closeLength : Nat) (closeBoth : Bool) : Bool :=
  (!openBoth && !closeBoth) || (openLength + closeLength) % 3 != 0 || closeLength % 3 == 0

/-- The nearest run that a closing run can close: the pieces behind it, its length, the marks it
has left, whether it could close too, and the pieces in front of it. -/
def findOpener? (mark : Char) (length : Nat) (both : Bool) (behind : List Piece) :
    List Piece → Option (List Piece × Nat × Nat × Bool × List Piece)
  | [] => none
  | .run mark' length' count opens closes :: front =>
    if mark' = mark ∧ opens ∧ pairs length' (opens && closes) length both then
      some (behind, length', count, closes, front)
    else findOpener? mark length both (.run mark' length' count opens closes :: behind) front
  | piece :: front => findOpener? mark length both (piece :: behind) front

/-- Pairs `count` marks of a closing run with the runs in front of it, which are given back to
front. What is left of the run may open another pair. -/
def closeRun : (fuel : Nat) → (mark : Char) → (length count : Nat) → (opens : Bool) →
    List Piece → List Piece
  | 0, mark, length, count, opens, front => .run mark length count opens true :: front
  | fuel + 1, mark, length, count, opens, front =>
    match findOpener? mark length opens [] front with
    | none =>
      if opens then .run mark length count opens true :: front
      else .done (.text (List.replicate count mark)) :: front
    | some (inside, length', count', closes', front) =>
      let paired := min count count'
      let wrapped := (wrap paired (inside.map Piece.inline)).map Piece.done
      let front :=
        if paired < count' then .run mark length' (count' - paired) true closes' :: front
        else front
      if paired < count then
        closeRun fuel mark length (count - paired) opens (wrapped.reverse ++ front)
      else wrapped.reverse ++ front

/-- Adds a piece to the pieces in front of it. -/
def addPiece (front : List Piece) : Piece → List Piece
  | .run mark length count opens closes =>
    if closes then closeRun (count + 1) mark length count opens front
    else .run mark length count opens closes :: front
  | piece => piece :: front

/-- Markup in which all runs are paired or plain text. -/
def settle (pieces : List Piece) : List Inline :=
  ((pieces.foldl addPiece []).map Piece.inline).reverse

/-! ## Brackets -/

/-- The pieces behind the nearest bracket in order, the bracket, and the pieces in front of it. -/
def findBracket? (behind : List Piece) :
    List Piece → Option (List Piece × Bool × Bool × List Char × List Piece)
  | [] => none
  | .bracket image active text :: front => some (behind, image, active, text, front)
  | piece :: front => findBracket? (piece :: behind) front

/-- No link lies inside another. -/
def deactivate : Piece → Piece
  | .bracket false _ text => .bracket false false text
  | piece => piece

/-- The target of a link whose text is followed by `rest`: in parentheses, or by a label, which may
be the link text itself. -/
def target? (definitions : List LinkDefinition) (linkText rest : List Char) :
    Option (List Char × List Char × List Char) :=
  match inlineTarget? rest with
  | some target => some target
  | none =>
    let own (rest : List Char) : Option (List Char × List Char × List Char) :=
      match label? ('[' :: (linkText ++ [']'])) with
      | some (label, []) =>
        (findDefinition? definitions label).map fun d => (d.destination, d.title, rest)
      | _ => none
    match after? ['[', ']'] rest with
    | some behind => own behind
    | none =>
      match label? rest with
      | some (label, behind) =>
        (findDefinition? definitions label).map fun d => (d.destination, d.title, behind)
      | none => own rest

/-- The pieces and the text behind a closing bracket. -/
def closeBracket (definitions : List LinkDefinition) (front : List Piece) (rest : List Char) :
    List Piece × List Char :=
  let close : Piece := .done (.text [']'])
  match findBracket? [] front with
  | none => (close :: front, rest)
  | some (inside, image, active, behind, front) =>
    let plain : List Piece :=
      close :: (inside.reverse ++ .done (Piece.bracket image active behind).inline :: front)
    if ¬active then (plain, rest)
    else
      match target? definitions (behind.take (behind.length - rest.length - 1)) rest with
      | none => (plain, rest)
      | some (destination, title, rest) =>
        if image then (.done (.image destination title (settle inside)) :: front, rest)
        else (.done (.link destination title (settle inside)) :: front.map deactivate, rest)

/-! ## Code and automatic links -/

/-- The text in front of the next run of exactly `n` backticks, and what follows that run. -/
def closingTicks? (n : Nat) : (fuel : Nat) → List Char → Option (List Char × List Char)
  | 0, _ => none
  | _, [] => none
  | fuel + 1, c :: rest =>
    if c = '`' then
      let run := (c :: rest).takeWhile (· == '`')
      let behind := (c :: rest).dropWhile (· == '`')
      if run.length = n then some ([], behind)
      else (closingTicks? n fuel behind).map fun (front, behind) => (run ++ front, behind)
    else (closingTicks? n fuel rest).map fun (front, behind) => (c :: front, behind)

/-- The content of a code span: line ends are spaces, and one space at each end is taken off unless
there is nothing else. -/
def codeText (cs : List Char) : List Char :=
  let cs := cs.map fun c => if c = '\n' then ' ' else c
  if cs.head? = some ' ' ∧ cs.getLast? = some ' ' ∧ ¬cs.all (· == ' ') then
    (cs.drop 1).dropLast
  else cs

def isSchemeChar (c : Char) : Bool := isAlphanumeric c || c == '.' || c == '-' || c == '+'

/-- An address between angle brackets, given behind the first of them, and what follows. -/
def uri? (cs : List Char) : Option (List Char × List Char) :=
  let scheme := cs.takeWhile isSchemeChar
  if (cs.head?.map isLetter).getD false ∧ 2 ≤ scheme.length ∧ scheme.length ≤ 32 then
    match cs.dropWhile isSchemeChar with
    | ':' :: rest =>
      let inside (c : Char) : Bool := 0x20 < c.toNat && c != '<' && c != '>'
      match rest.dropWhile inside with
      | '>' :: behind => some (scheme ++ ':' :: rest.takeWhile inside, behind)
      | _ => none
    | _ => none
  else none

def isMailboxChar (c : Char) : Bool :=
  isAlphanumeric c || ".!#$%&'*+/=?^_`\x7b|\x7d~-".toList.contains c

def isHostChar (c : Char) : Bool := isAlphanumeric c || c == '-'

/-- The labels of a host name up to the closing bracket, and what follows that. -/
def hostName? : (fuel : Nat) → List Char → Option (List Char × List Char)
  | 0, _ => none
  | fuel + 1, cs =>
    let label := cs.takeWhile isHostChar
    if label.isEmpty ∨ label.length > 63 ∨ label.head? = some '-' ∨ label.getLast? = some '-' then
      none
    else
      match cs.dropWhile isHostChar with
      | '.' :: rest =>
        (hostName? fuel rest).map fun (more, behind) => (label ++ '.' :: more, behind)
      | '>' :: behind => some (label, behind)
      | _ => none

/-- A mail address between angle brackets, and what follows. -/
def mail? (cs : List Char) : Option (List Char × List Char) :=
  let mailbox := cs.takeWhile isMailboxChar
  match mailbox, cs.dropWhile isMailboxChar with
  | _ :: _, '@' :: rest =>
    (hostName? (rest.length + 1) rest).map fun (host, behind) => (mailbox ++ '@' :: host, behind)
  | _, _ => none

/-- What a `<` begins, and the text behind that. -/
def angled (rest : List Char) : Inline × List Char :=
  match uri? rest with
  | some (address, behind) => (.link address [] [.text address], behind)
  | none =>
    match mail? rest with
    | some (address, behind) => (.mailLink address, behind)
    | none =>
      match Tag.afterHtml? rest with
      | some behind => (.html ('<' :: rest.take (rest.length - behind.length)), behind)
      | none => (.text ['<'], rest)

/-! ## Reading -/

/-- A run of marks between the characters in front of it and behind it. A run of `*` opens before
text and closes behind text; punctuation counts as text only beside blanks or other punctuation. A
run of `_` does neither inside a word. -/
def markRun (before : Option Char) (mark : Char) (length : Nat) (next : Option Char) : Piece :=
  let blank (c : Option Char) : Bool := (c.map Text.isBlank).getD true
  let punctuation (c : Option Char) : Bool := (c.map isPunctuation).getD false
  let faces (inner outer : Option Char) : Bool :=
    !blank inner &&
      ((mark == '*' && !punctuation inner) || blank outer || punctuation outer)
  .run mark length length (faces next before) (faces before next)

/-- Characters that may begin something. -/
def isSpecial (c : Char) : Bool := "\\`<&*_[]! \t\n".toList.contains c

/-- The next piece or pieces. `before` is the character in front of the text and `front` what was
read, back to front. -/
def readPiece (definitions : List LinkDefinition) (before : Option Char) (front : List Piece)
    (c : Char) (rest : List Char) : List Piece × List Char :=
  let plain (cs : List Char) : Piece := .done (.text cs)
  match c with
  | '\\' =>
    match rest with
    | '\n' :: rest => (.done .hardBreak :: front, rest)
    | d :: more =>
      if isAsciiPunctuation d then (plain [d] :: front, more) else (plain [c] :: front, rest)
    | [] => (plain [c] :: front, [])
  | '`' =>
    let run := (c :: rest).takeWhile (· == '`')
    let behind := (c :: rest).dropWhile (· == '`')
    match closingTicks? run.length (behind.length + 1) behind with
    | some (cs, behind) => (.done (.code (codeText cs)) :: front, behind)
    | none => (plain run :: front, behind)
  | '<' =>
    let (inline, rest) := angled rest
    (.done inline :: front, rest)
  | '&' =>
    match Entity.scan? rest with
    | some (value, rest) => (plain value :: front, rest)
    | none => (plain [c] :: front, rest)
  | '*' | '_' =>
    let run := (c :: rest).takeWhile (· == c)
    let behind := (c :: rest).dropWhile (· == c)
    (markRun before c run.length behind.head? :: front, behind)
  | '!' =>
    match rest with
    | '[' :: rest => (.bracket true true rest :: front, rest)
    | rest => (plain [c] :: front, rest)
  | '[' => (.bracket false true rest :: front, rest)
  | ']' => closeBracket definitions front rest
  | '\n' => (.done .softBreak :: front, rest)
  | _ =>
    if isSpace c then
      let blanks := (c :: rest).takeWhile isSpace
      match (c :: rest).dropWhile isSpace with
      | '\n' :: rest =>
        (.done (if 2 ≤ blanks.length then .hardBreak else .softBreak) :: front, rest)
      | behind => (plain blanks :: front, behind)
    else
      (plain (c :: rest.takeWhile (!isSpecial ·)) :: front, rest.dropWhile (!isSpecial ·))

/-- The character in front of `behind` in `cs`. -/
def lastRead (cs behind : List Char) : Option Char :=
  (cs.take (cs.length - behind.length)).getLast?

/-- All pieces, back to front. `fuel` bounds the number of steps; the length is enough. -/
def readPieces (definitions : List LinkDefinition) :
    (fuel : Nat) → (before : Option Char) → List Piece → List Char → List Piece
  | _, _, front, [] => front
  | 0, _, front, cs => .done (.text cs) :: front
  | fuel + 1, before, front, c :: rest =>
    let (front, behind) := readPiece definitions before front c rest
    readPieces definitions fuel (lastRead (c :: rest) behind) front behind

/-- The markup of a text. -/
def readInlines (definitions : List LinkDefinition) (cs : List Char) : List Inline :=
  settle (readPieces definitions cs.length none [] cs).reverse

/-! ## Views -/

mutual

/-- The characters of text and code. -/
def Inline.plainText : Inline → List Char
  | .text cs | .code cs => cs
  | .html _ | .softBreak | .hardBreak => []
  | .emphasis children | .strong children | .link _ _ children | .image _ _ children =>
    plainTexts children
  | .mailLink address => address

def plainTexts : List Inline → List Char
  | [] => []
  | inline :: more => inline.plainText ++ plainTexts more

end

end SchemaCompiler.Commonmark
