import SchemaCompiler.Commonmark.Entity
import SchemaCompiler.Text.CaseFolding

/-!
Parts of links: destinations, titles, labels, and the definitions that labels refer to.
-/

namespace SchemaCompiler.Commonmark

/-- A text with its backslash escapes and character references resolved. `fuel` bounds the number
of steps; the length is enough. -/
def unescapeWith : (fuel : Nat) → List Char → List Char
  | _, [] => []
  | 0, cs => cs
  | fuel + 1, c :: rest =>
    match c, rest with
    | '\\', d :: more =>
      if isAsciiPunctuation d then d :: unescapeWith fuel more else c :: unescapeWith fuel rest
    | '&', _ =>
      match Entity.scan? rest with
      | some (value, behind) => value ++ unescapeWith fuel behind
      | none => c :: unescapeWith fuel rest
    | _, _ => c :: unescapeWith fuel rest

def unescape (cs : List Char) : List Char := unescapeWith cs.length cs

/-! ## Destinations and titles -/

/-- A destination behind its `<`, and what follows the `>`. -/
def pointedDestination? : List Char → Option (List Char × List Char)
  | [] => none
  | '>' :: rest => some ([], rest)
  | '\\' :: c :: rest =>
    if isAsciiPunctuation c then
      (pointedDestination? rest).map fun (front, behind) => ('\\' :: c :: front, behind)
    else (pointedDestination? (c :: rest)).map fun (front, behind) => ('\\' :: front, behind)
  | c :: rest =>
    if c = '\n' ∨ c = '\r' ∨ c = '<' then none
    else (pointedDestination? rest).map fun (front, behind) => (c :: front, behind)

/-- How deep parentheses in a destination may nest. -/
def maxParentheses : Nat := 32

/-- A destination up to a blank or an unmatched parenthesis; `depth` of its parentheses are
open. -/
def bareDestination? (depth : Nat) : List Char → Option (List Char × List Char)
  | [] => if depth = 0 then some ([], []) else none
  | '\\' :: c :: rest =>
    if isAsciiPunctuation c then
      (bareDestination? depth rest).map fun (front, behind) => ('\\' :: c :: front, behind)
    else (bareDestination? depth (c :: rest)).map fun (front, behind) => ('\\' :: front, behind)
  | c :: rest =>
    if c.toNat ≤ 0x20 then (if depth = 0 then some ([], c :: rest) else none)
    else if c = '(' then
      if depth > maxParentheses then none
      else (bareDestination? (depth + 1) rest).map fun (front, behind) => (c :: front, behind)
    else if c = ')' then
      match depth with
      | 0 => some ([], c :: rest)
      | depth + 1 => (bareDestination? depth rest).map fun (front, behind) => (c :: front, behind)
    else (bareDestination? depth rest).map fun (front, behind) => (c :: front, behind)

/-- A destination as it is written, and what follows it. -/
def destination? : List Char → Option (List Char × List Char)
  | '<' :: rest => pointedDestination? rest
  | cs => bareDestination? 0 cs

/-- A title up to its closing mark, and what follows the mark. -/
def titleBody? (opening closing : Char) : List Char → Option (List Char × List Char)
  | [] => none
  | '\\' :: c :: rest =>
    if isAsciiPunctuation c then
      (titleBody? opening closing rest).map fun (front, behind) => ('\\' :: c :: front, behind)
    else (titleBody? opening closing (c :: rest)).map fun (front, behind) => ('\\' :: front, behind)
  | c :: rest =>
    if c = closing then some ([], rest)
    else if c = opening then none
    else (titleBody? opening closing rest).map fun (front, behind) => (c :: front, behind)

/-- A title as it is written, and what follows it. -/
def title? : List Char → Option (List Char × List Char)
  | '"' :: rest => titleBody? '"' '"' rest
  | '\'' :: rest => titleBody? '\'' '\'' rest
  | '(' :: rest => titleBody? '(' ')' rest
  | _ => none

/-- The parenthesis with destination and title that follows a link text. -/
def inlineTarget? (cs : List Char) : Option (List Char × List Char × List Char) :=
  match cs with
  | '(' :: rest => do
    let (destination, rest) ← destination? (rest.dropWhile isWhitespace)
    let rest := rest.dropWhile isWhitespace
    let (title, rest) :=
      match title? rest with
      | some (title, rest) => (title, rest.dropWhile isWhitespace)
      | none => ([], rest)
    match rest with
    | ')' :: rest => some (unescape destination, unescape title, rest)
    | _ => none
  | _ => none

/-! ## Labels -/

/-- How long a label may be. -/
def maxLabel : Nat := 999

/-- A label behind its bracket, and what follows the closing bracket. -/
def labelBody? : List Char → Option (List Char × List Char)
  | [] => none
  | ']' :: rest => some ([], rest)
  | '[' :: _ => none
  | '\\' :: c :: rest => (labelBody? rest).map fun (front, behind) => ('\\' :: c :: front, behind)
  | c :: rest => (labelBody? rest).map fun (front, behind) => (c :: front, behind)

/-- A label with its brackets, and what follows it. -/
def label? : List Char → Option (List Char × List Char)
  | '[' :: rest =>
    (labelBody? rest).filter fun (label, _) => label.length ≤ maxLabel && !label.all isWhitespace
  | _ => none

/-- A run of blanks as a single space. -/
def collapse : List Char → List Char
  | [] => []
  | c :: rest =>
    if isWhitespace c then
      match rest with
      | d :: _ => if isWhitespace d then collapse rest else ' ' :: collapse rest
      | [] => [' ']
    else c :: collapse rest

/-- The form in which labels are compared. Letter case does not distinguish them. -/
def labelKey (label : List Char) : List Char :=
  Text.foldCase (collapse (Text.trimBy isWhitespace label))

structure LinkDefinition where
  key : List Char
  destination : List Char
  title : List Char
deriving DecidableEq, Repr

/-- The first definition of a label counts. -/
def findDefinition? (definitions : List LinkDefinition) (label : List Char) :
    Option LinkDefinition :=
  definitions.find? fun d => d.key == labelKey label

/-- Blanks with at most one line end among them; tells whether there was one. -/
def skipBlanks (cs : List Char) : Bool × List Char :=
  match cs.dropWhile isSpace with
  | '\n' :: rest => (true, rest.dropWhile isSpace)
  | rest => (false, rest)

/-- What follows the end of a line on which only blanks are left. -/
def lineEnd? (cs : List Char) : Option (List Char) :=
  match cs.dropWhile isSpace with
  | [] => some []
  | '\n' :: rest => some rest
  | _ => none

/-- A definition at the start of a line, and the lines behind it. A title that something follows
is no title when it stands on a line of its own, and spoils the definition otherwise. -/
def linkDefinition? (cs : List Char) : Option (LinkDefinition × List Char) := do
  let (label, rest) ← label? cs
  let rest ← after? [':'] rest
  let (_, rest) := skipBlanks rest
  let (destination, rest) ←
    (destination? rest).filter fun (_, behind) => behind.length < rest.length
  let untitled : LinkDefinition := ⟨labelKey label, unescape destination, []⟩
  let withoutTitle := (lineEnd? rest).map fun rest => (untitled, rest)
  let (_, next) := skipBlanks rest
  if next.length = rest.length then withoutTitle
  else
    match title? next with
    | none => withoutTitle
    | some (title, behind) =>
      match lineEnd? behind with
      | some rest => some ({ untitled with title := unescape title }, rest)
      | none => withoutTitle

end SchemaCompiler.Commonmark
