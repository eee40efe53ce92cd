import SchemaCompiler.Text.Lines

/-!
The value of a block string.

A block string is laid out like the source around it: the indentation that its lines share and the
blank lines at both ends are not part of its value.
-/

namespace SchemaCompiler.BlockString

def isIndent (c : Char) : Bool := c == ' ' || c == '\t'

/-- Every line end written as a line feed. -/
def unifyLineEnds : List Char → List Char
  | [] => []
  | '\r' :: '\n' :: rest => '\n' :: unifyLineEnds rest
  | c :: rest => (if c = '\r' then '\n' else c) :: unifyLineEnds rest

def isBlankLine (line : List Char) : Bool := line.all isIndent

/-- The width of the indentation, unless the line holds nothing else. -/
def indentWidth? (line : List Char) : Option Nat :=
  if isBlankLine line then none else some (line.takeWhile isIndent).length

/-- The least indentation of the lines that have some text. -/
def commonIndent (lines : List (List Char)) : Nat := (lines.filterMap indentWidth?).min?.getD 0

/-- The lines without the indentation they share; the first line, which follows the opening
quotes, has no part in it. -/
def dedent : List (List Char) → List (List Char)
  | [] => []
  | first :: rest => first :: rest.map (·.drop (commonIndent rest))

def dropBlankEnds (lines : List (List Char)) : List (List Char) :=
  ((lines.dropWhile isBlankLine).reverse.dropWhile isBlankLine).reverse

def value (raw : List Char) : List Char :=
  ['\n'].intercalate (dropBlankEnds (dedent (Text.splitOnChar '\n' (unifyLineEnds raw))))

end SchemaCompiler.BlockString
