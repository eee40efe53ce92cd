/-!
Tokens of a schema source.
-/

namespace SchemaCompiler

/-- A place in a source text; lines and columns count from one. -/
structure Position where
  line : UInt32
  column : UInt32
deriving DecidableEq, Repr, Inhabited

namespace Position

def start : Position := ⟨1, 1⟩

def text (p : Position) : String := toString p.line.toNat ++ ":" ++ toString p.column.toNat

/-- The place behind a piece of text. A line feed or a carriage return ends a line; a carriage
return directly before a line feed belongs to that line feed and moves nothing. -/
def advance (p : Position) : List Char → Position
  | [] => p
  | '\r' :: '\n' :: rest => p.advance ('\n' :: rest)
  | c :: rest =>
    if c = '\n' ∨ c = '\r' then (⟨p.line + 1, 1⟩ : Position).advance rest
    else (⟨p.line, p.column + 1⟩ : Position).advance rest

end Position

/-- The thirteen single-character marks. -/
inductive Punctuator where
  | bang | dollar | ampersand | parenOpen | parenClose | colon | equals | atSign
  | bracketOpen | bracketClose | braceOpen | pipe | braceClose
deriving DecidableEq, Repr, Inhabited

namespace Punctuator

def char : Punctuator → Char
  | bang => '!'
  | dollar => '$'
  | ampersand => '&'
  | parenOpen => '('
  | parenClose => ')'
  | colon => ':'
  | equals => '='
  | atSign => '@'
  | bracketOpen => '['
  | bracketClose => ']'
  | braceOpen => '{'
  | pipe => '|'
  | braceClose => '}'

def all : List Punctuator :=
  [bang, dollar, ampersand, parenOpen, parenClose, colon, equals, atSign,
   bracketOpen, bracketClose, braceOpen, pipe, braceClose]

def ofChar? (c : Char) : Option Punctuator := all.find? (·.char == c)

end Punctuator

/-- What a token is. -/
inductive TokenKind where
  | name (text : String)
  /-- A number without fraction and exponent, as written. -/
  | int (text : String)
  /-- A number with a fraction or an exponent, as written. -/
  | float (text : String)
  /-- The value of a quoted or block string. -/
  | string (value : String)
  | punct (mark : Punctuator)
  /-- Three dots. -/
  | spread
  /-- The end of the source. -/
  | eof
deriving DecidableEq, Repr, Inhabited

/-- How a message names a token. -/
def TokenKind.describe : TokenKind → String
  | name text => "name '" ++ text ++ "'"
  | int text | float text => "number " ++ text
  | string _ => "string"
  | punct mark => "'" ++ mark.char.toString ++ "'"
  | spread => "'...'"
  | eof => "end of file"

structure Token where
  kind : TokenKind
  position : Position
deriving DecidableEq, Repr, Inhabited

end SchemaCompiler
