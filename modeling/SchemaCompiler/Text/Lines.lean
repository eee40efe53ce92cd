/-!
Lines and blanks of a text.
-/

namespace SchemaCompiler.Text

/-- The pieces between occurrences of `separator`; always at least one. -/
def splitOnChar (separator : Char) : List Char → List (List Char)
  | [] => [[]]
  | c :: rest =>
    if c = separator then [] :: splitOnChar separator rest
    else
      match splitOnChar separator rest with
      | [] => [[c]]
      | piece :: pieces => (c :: piece) :: pieces

/-- A line without the carriage return that ends it. -/
def dropLastReturn (line : List Char) : List Char :=
  if line.getLast? = some '\r' then line.dropLast else line

/-- The lines of a text. A line ends in a line feed, which may follow a carriage return; a text that
ends in a line end has no empty line after it. The last line keeps a carriage return that no line
feed follows. -/
def linesOf (cs : List Char) : List (List Char) :=
  let pieces := splitOnChar '\n' cs
  let closed := pieces.dropLast.map dropLastReturn
  match pieces.getLast? with
  | none => closed
  | some [] => closed
  | some last => closed ++ [last]

def lines (s : String) : List String := (linesOf s.toList).map String.ofList

/-- The characters that trimming removes: the white space of the character standard. -/
def isBlank (c : Char) : Bool :=
  let n := c.toNat
  (0x09 ≤ n && n ≤ 0x0D) || n == 0x20 || n == 0x85 || n == 0xA0 || n == 0x1680 ||
    (0x2000 ≤ n && n ≤ 0x200A) || n == 0x2028 || n == 0x2029 || n == 0x202F || n == 0x205F ||
    n == 0x3000

/-- A list without the members at both ends that satisfy `p`. -/
def trimBy (p : Char → Bool) (cs : List Char) : List Char :=
  ((cs.dropWhile p).reverse.dropWhile p).reverse

def trim (s : String) : String := String.ofList (trimBy isBlank s.toList)

end SchemaCompiler.Text
