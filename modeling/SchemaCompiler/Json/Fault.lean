import SchemaCompiler.Json
import SchemaCompiler.Text.Utf8

/-!
Why bytes are no JSON text, or a JSON value is not of the expected shape.
-/

namespace SchemaCompiler.Json

/-! ## Faults of the text -/

inductive TextFault where
  | eofInList
  | eofInObject
  | eofInString
  | eofInValue
  | expectedColon
  | expectedListEnd
  | expectedObjectEnd
  | expectedIdent
  | expectedValue
  | invalidEscape
  | invalidNumber
  | numberOutOfRange
  | invalidCodePoint
  | controlCharacter
  | keyNotString
  | loneSurrogate
  | trailingComma
  | trailingCharacters
  | unfinishedSurrogate
  | tooDeep
deriving DecidableEq, Repr

def TextFault.message : TextFault → String
  | eofInList => "EOF while parsing a list"
  | eofInObject => "EOF while parsing an object"
  | eofInString => "EOF while parsing a string"
  | eofInValue => "EOF while parsing a value"
  | expectedColon => "expected `:`"
  | expectedListEnd => "expected `,` or `]`"
  | expectedObjectEnd => "expected `,` or `\x7d`"
  | expectedIdent => "expected ident"
  | expectedValue => "expected value"
  | invalidEscape => "invalid escape"
  | invalidNumber => "invalid number"
  | numberOutOfRange => "number out of range"
  | invalidCodePoint => "invalid unicode code point"
  | controlCharacter =>
    "control character (\\u0000-\\u001F) found while parsing a string"
  | keyNotString => "key must be a string"
  | loneSurrogate => "lone leading surrogate in hex escape"
  | trailingComma => "trailing comma"
  | trailingCharacters => "trailing characters"
  | unfinishedSurrogate => "unexpected end of hex escape"
  | tooDeep => "recursion limit exceeded"

/-! ## Faults of the shape -/

/-- What was found in place of an expected value. -/
inductive Found where
  | null
  | boolean (value : Bool)
  | number (value : Number)
  | string (value : String)
  | sequence
  | map
  | unitVariant
deriving DecidableEq, Repr

def found : Json → Found
  | .null => .null
  | .boolean value => .boolean value
  | .number value => .number value
  | .string value => .string value
  | .array _ => .sequence
  | .object _ => .map

def Found.describe : Found → String
  | null => "null"
  | boolean value => "boolean `" ++ (if value then "true" else "false") ++ "`"
  | number (.integer value) => "integer `" ++ toString value ++ "`"
  | number (.double bits) => "floating point `" ++ Number.doubleText bits ++ "`"
  | string value => "string " ++ Text.quoteString value
  | sequence => "sequence"
  | map => "map"
  | unitVariant => "unit variant"

inductive ShapeFault where
  | wrongType (found : Found) (expected : String)
  | wrongValue (found : Found) (expected : String)
  | wrongLength (length : Nat) (expected : String)
  | unknownVariant (name : String) (variants : List String)
  | unknownField (name : String) (fields : List String)
  | missingField (name : String)
  | duplicateField (name : String)
  | custom (message : String)
deriving DecidableEq, Repr

/-- The names that would have been right. -/
def oneOf : List String → String
  | [] => ""
  | [a] => "`" ++ a ++ "`"
  | [a, b] => "`" ++ a ++ "` or `" ++ b ++ "`"
  | names => "one of " ++ String.intercalate ", " (names.map fun name => "`" ++ name ++ "`")

def ShapeFault.message : ShapeFault → String
  | wrongType found expected => "invalid type: " ++ found.describe ++ ", expected " ++ expected
  | wrongValue found expected => "invalid value: " ++ found.describe ++ ", expected " ++ expected
  | wrongLength length expected =>
    "invalid length " ++ toString length ++ ", expected " ++ expected
  | unknownVariant name variants =>
    "unknown variant `" ++ name ++ "`, expected " ++ oneOf variants
  | unknownField name fields => "unknown field `" ++ name ++ "`, expected " ++ oneOf fields
  | missingField name => "missing field `" ++ name ++ "`"
  | duplicateField name => "duplicate field `" ++ name ++ "`"
  | custom message => message

/-! ## Faults in a text being read -/

inductive Fault where
  | text (fault : TextFault)
  | shape (fault : ShapeFault)
deriving DecidableEq, Repr

def Fault.message : Fault → String
  | text fault => fault.message
  | shape fault => fault.message

/-- A fault and the bytes behind the place it points at. A fault of the shape gets its place from
the innermost container of the text around it; until then it is not placed, and `left` is where
reading stopped. -/
structure Stop where
  fault : Fault
  left : Bytes
  placed : Bool
deriving DecidableEq, Repr

/-- Line and column of the place in `whole` behind which `left` remains. Lines count from one; the
column is the number of bytes in front of the place on its line. -/
def placeOf (whole left : Bytes) : Nat × Nat :=
  (whole.take (whole.length - left.length)).foldl
    (fun place b => if b = 10 then (place.1 + 1, 0) else (place.1, place.2 + 1)) (1, 0)

/-- The message of a fault in `whole`. -/
def Stop.message (whole : Bytes) (stop : Stop) : String :=
  let (line, column) := placeOf whole stop.left
  stop.fault.message ++ " at line " ++ toString line ++ " column " ++ toString column

end SchemaCompiler.Json
