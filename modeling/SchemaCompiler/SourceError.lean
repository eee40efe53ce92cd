import SchemaCompiler.Token.Lexer

/-!
Errors in a schema file.
-/

namespace SchemaCompiler

/-- What a parser looks for at a token. -/
inductive Expectation where
  | definition
  | name
  | value
  | mark (mark : Punctuator)
  | keyword (word : String)
deriving DecidableEq, Repr

def Expectation.describe : Expectation → String
  | definition => "a definition"
  | name => "a name"
  | value => "a value"
  | mark m => "'" ++ m.char.toString ++ "'"
  | keyword word => "'" ++ word ++ "'"

/-- Why tokens are no document. -/
inductive SyntaxFault where
  | unexpected (expected : Expectation) (found : TokenKind)
  | describedExtension
  | unknownOperation (name : String)
  | notTypeKeyword (name : String)
  | reservedEnumValue (name : String)
  | variableUse
  | unknownLocation (name : String)
deriving DecidableEq, Repr

def SyntaxFault.message : SyntaxFault → String
  | unexpected expected found => "expected " ++ expected.describe ++ ", found " ++ found.describe
  | describedExtension => "extensions cannot have a description"
  | unknownOperation name => "unknown operation type '" ++ name ++ "'"
  | notTypeKeyword name => "expected a type keyword, found '" ++ name ++ "'"
  | reservedEnumValue name => "'" ++ name ++ "' cannot be used as an enum value"
  | variableUse => "variables are not allowed in constant values"
  | unknownLocation name => "unknown directive location '" ++ name ++ "'"

/-- Why a file gives no document. -/
inductive SourceFault where
  | lexical (position : Position) (fault : LexicalFault)
  | grammar (position : Position) (fault : SyntaxFault)
  /-- The path has no file stem to name the document after. -/
  | unnamed
  | nameTaken (name path : String)
  | notText
deriving DecidableEq, Repr

namespace SourceFault

def position? : SourceFault → Option Position
  | lexical position _ | grammar position _ => some position
  | _ => none

def message : SourceFault → String
  | lexical _ fault => fault.message
  | grammar _ fault => fault.message
  | unnamed => "cannot derive a document name from path"
  | nameTaken name path => "document name '" ++ name ++ "' is already used by " ++ path
  | notText => "source is not valid UTF-8"

end SourceFault

/-- A file that gives no document. -/
structure SourceError where
  file : String
  fault : SourceFault
deriving DecidableEq, Repr

/-- The file, the place if there is one, and what is wrong. -/
def SourceError.message (e : SourceError) : String :=
  match e.fault.position? with
  | some position => e.file ++ ":" ++ position.text ++ ": " ++ e.fault.message
  | none => e.file ++ ": " ++ e.fault.message

end SchemaCompiler
