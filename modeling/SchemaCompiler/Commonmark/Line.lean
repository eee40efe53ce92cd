import SchemaCompiler.Commonmark.Character

/-!
Lines as columns.

A tab reaches to the next column that is a multiple of four, and a line may be entered in the middle
of a tab.
-/

namespace SchemaCompiler.Commonmark

/-- The lines of a text without their ends: line feeds, carriage returns, or both. -/
def lines : List Char → List (List Char)
  | [] => []
  | '\r' :: '\n' :: rest => [] :: lines rest
  | c :: rest =>
    if c = '\n' ∨ c = '\r' then [] :: lines rest
    else
      match rest with
      | [] => [[c]]
      | d :: _ =>
        if d = '\n' ∨ d = '\r' then
          match lines rest with
          | _ :: more => [c] :: more
          | [] => [[c]]
        else
          match lines rest with
          | line :: more => (c :: line) :: more
          | [] => [[c]]

/-- What is left of a line: it begins at `column`, and `entered` columns of a tab come first. -/
structure Cursor where
  column : Nat
  entered : Nat
  rest : List Char
deriving DecidableEq, Repr

namespace Cursor

def ofLine (line : List Char) : Cursor := ⟨0, 0, line⟩

/-- How far a tab at `column` reaches. -/
def tabWidth (column : Nat) : Nat := 4 - column % 4

/-- The width of the blanks from `column` on. -/
def blankWidth (column : Nat) : List Char → Nat
  | ' ' :: rest => 1 + blankWidth (column + 1) rest
  | '\t' :: rest => tabWidth column + blankWidth (column + tabWidth column) rest
  | _ => 0

/-- The width of the blanks at the front. -/
def indent (c : Cursor) : Nat := c.entered + blankWidth (c.column + c.entered) c.rest

def isBlank (c : Cursor) : Bool := c.rest.all isSpace

/-- Goes on by `n` columns, or to the end of the blanks at the front. -/
def dropColumns : (n : Nat) → Cursor → Cursor
  | 0, c => c
  | n + 1, ⟨column, entered + 1, rest⟩ => dropColumns n ⟨column + 1, entered, rest⟩
  | n + 1, ⟨column, 0, ' ' :: rest⟩ => dropColumns n ⟨column + 1, 0, rest⟩
  | n + 1, ⟨column, 0, '\t' :: rest⟩ => dropColumns n ⟨column + 1, tabWidth column - 1, rest⟩
  | _ + 1, c => c

def dropBlanks (c : Cursor) : Cursor := c.dropColumns c.indent

/-- Goes on by `n` characters, none of which is a tab. -/
def drop (n : Nat) (c : Cursor) : Cursor := ⟨c.column + n, c.entered, c.rest.drop n⟩

/-- The text that is left. -/
def text (c : Cursor) : List Char := List.replicate c.entered ' ' ++ c.rest

end Cursor

end SchemaCompiler.Commonmark
