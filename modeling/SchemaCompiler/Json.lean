import SchemaCompiler.Decimal.Shortest
import SchemaCompiler.Text.Quoted

/-!
JSON values and their compact text.
-/

namespace SchemaCompiler

/-- A number is an integer of at most 64 bits or a double, given by its bits. -/
inductive Number where
  | integer (value : Int)
  | double (bits : UInt64)
deriving DecidableEq, Repr, Inhabited

namespace Number

/-- An exponent with its sign and at least two digits. -/
def exponentText (exponent : Int) : String :=
  let digits := Nat.toDigits 10 exponent.natAbs
  (if exponent < 0 then "-" else "+") ++
    String.ofList (if digits.length < 2 then '0' :: digits else digits)

/-- Digits with a point at `point` places from the left; powers of ten are written out between
`1e-5` and `1e16`, and every number shows that it is a double. -/
def placed (digits : List Char) (point : Int) : String :=
  let length : Int := digits.length
  if length ≤ point ∧ point ≤ 16 then
    String.ofList (digits ++ List.replicate (point - length).toNat '0') ++ ".0"
  else if 0 < point ∧ point ≤ 16 then
    String.ofList (digits.take point.toNat ++ '.' :: digits.drop point.toNat)
  else if -5 < point ∧ point ≤ 0 then
    "0." ++ String.ofList (List.replicate (-point).toNat '0' ++ digits)
  else
    let fraction := match digits.drop 1 with
      | [] => []
      | rest => '.' :: rest
    String.ofList (digits.take 1 ++ fraction) ++ "e" ++ exponentText (point - 1)

def doubleText (bits : UInt64) : String :=
  let sign := if bits >>> 63 = 1 then "-" else ""
  let b := Decimal.Binary.ofBits bits
  if b.mantissa = 0 then sign ++ "0.0"
  else
    let s := Decimal.shortest b
    let digits := Nat.toDigits 10 s.digits
    sign ++ placed digits (digits.length + s.exponent)

def text : Number → String
  | integer value => toString value
  | double bits => doubleText bits

end Number

inductive Json where
  | null
  | boolean (value : Bool)
  | number (value : Number)
  | string (value : String)
  | array (items : List Json)
  /-- Members in the order of the text; a name may come twice. -/
  | object (members : List (String × Json))
deriving BEq, Repr, Inhabited

namespace Json

/-! ## Compact text -/

/-- A character inside quotes: quotes, backslashes and controls are escaped. -/
def escapedChar (c : Char) : String :=
  if c = '"' then "\\\""
  else if c = '\\' then "\\\\"
  else if c = '\x08' then "\\b"
  else if c = '\x0c' then "\\f"
  else if c = '\n' then "\\n"
  else if c = '\r' then "\\r"
  else if c = '\t' then "\\t"
  else if c.toNat < 0x20 then
    "\\u00" ++ (if c.toNat < 0x10 then "0" else "") ++ Text.hexDigits c.toNat
  else c.toString

def quoted (s : String) : String := "\"" ++ String.join (s.toList.map escapedChar) ++ "\""

mutual

/-- The text without any blanks. -/
def text : Json → String
  | null => "null"
  | boolean value => if value then "true" else "false"
  | number value => value.text
  | string value => quoted value
  | array items => "[" ++ String.intercalate "," (itemTexts items) ++ "]"
  | object members => "\x7b" ++ String.intercalate "," (memberTexts members) ++ "\x7d"

def itemTexts : List Json → List String
  | [] => []
  | item :: items => item.text :: itemTexts items

def memberTexts : List (String × Json) → List String
  | [] => []
  | (name, value) :: members => (quoted name ++ ":" ++ value.text) :: memberTexts members

end

/-! ## Maps -/

/-- Puts a member at its place in a list sorted by name; a member of that name is replaced. -/
def insertMember (name : String) (value : Json) : List (String × Json) → List (String × Json)
  | [] => [(name, value)]
  | (other, old) :: rest =>
    if name < other then (name, value) :: (other, old) :: rest
    else if name = other then (name, value) :: rest
    else (other, old) :: insertMember name value rest

mutual

/-- The value with the members of every object sorted by name. Of several members with one name
the last counts. -/
def sorted : Json → Json
  | array items => array (sortedItems items)
  | object members => object (sortedMembers [] members)
  | value => value

def sortedItems : List Json → List Json
  | [] => []
  | item :: items => item.sorted :: sortedItems items

def sortedMembers (done : List (String × Json)) : List (String × Json) → List (String × Json)
  | [] => done
  | (name, value) :: members => sortedMembers (insertMember name value.sorted done) members

end

end Json

end SchemaCompiler
