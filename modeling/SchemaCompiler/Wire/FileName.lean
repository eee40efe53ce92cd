import SchemaCompiler.Text.Lines

/-!
Names of generated files.

A name is relative to an output directory. Its segments stand between slashes, and none of them may
be empty, `.` or `..`, so that a named file lies inside the directory.
-/

namespace SchemaCompiler.FileName

/-- Why a name is refused. -/
inductive Fault where
  | empty
  | absolute
  | backslash
  | driveLetter
  | emptySegment
  | dots (segment : String)
deriving DecidableEq, Repr

def Fault.message : Fault → String
  | empty => "file name is empty"
  | absolute => "absolute paths are not allowed"
  | backslash => "backslashes are not allowed; use '/'"
  | driveLetter => "drive-letter paths are not allowed"
  | emptySegment => "empty path segments are not allowed"
  | dots segment => "'" ++ segment ++ "' path segments are not allowed"

/-- What is wrong with a segment. -/
def segmentFault? : List Char → Option Fault
  | [] => some .emptySegment
  | ['.'] => some (.dots ".")
  | ['.', '.'] => some (.dots "..")
  | _ => none

/-- The pieces of a name between slashes. -/
def segmentsOf (cs : List Char) : List (List Char) := Text.splitOnChar '/' cs

def segments (name : String) : List String := (segmentsOf name.toList).map String.ofList

def isLetter (c : Char) : Bool := ('a' ≤ c && c ≤ 'z') || ('A' ≤ c && c ≤ 'Z')

def hasDriveLetter : List Char → Bool
  | c :: ':' :: _ => isLetter c
  | _ => false

/-- What is wrong with a name: faults of the whole name first, then that of the first bad
segment. -/
def faultOf? (cs : List Char) : Option Fault :=
  if cs.isEmpty then some .empty
  else if cs.head? = some '/' then some .absolute
  else if cs.contains '\\' then some .backslash
  else if hasDriveLetter cs then some .driveLetter
  else (segmentsOf cs).findSome? segmentFault?

def fault? (name : String) : Option Fault := faultOf? name.toList

end SchemaCompiler.FileName
