import SchemaCompiler.Json.Fault

/-!
Reading JSON text.

A reader takes the bytes from its first one on and answers with what it read and the bytes behind
it. A value may hold at most 127 containers inside each other. A value that nobody asked for is
passed over: then only its brackets, its strings and the spelling of its literals are looked at, at
any depth.
-/

namespace SchemaCompiler.Json

namespace Reader

/-- What was read and the bytes behind it. -/
abbrev Reading (α : Type) := α × Bytes

/-- A fault at the next byte that is left. -/
def failAt {α : Type} (fault : TextFault) (left : Bytes) : Except Stop α :=
  .error ⟨.text fault, left, true⟩

/-- A fault about the next byte, placed behind it. -/
def failOn {α : Type} (fault : TextFault) (left : Bytes) : Except Stop α := failAt fault left.tail

def isBlank (b : UInt8) : Bool := b == 32 || b == 10 || b == 9 || b == 13

def skipBlanks (bytes : Bytes) : Bytes := bytes.dropWhile isBlank

def isDigit (b : UInt8) : Bool := 48 ≤ b && b ≤ 57

def digitValue (b : UInt8) : Nat := b.toNat - 48

/-! ## Literals -/

/-- The letters that complete a literal. -/
def literal (word : Bytes) (bytes : Bytes) : Except Stop Bytes :=
  match word, bytes with
  | [], rest => .ok rest
  | _ :: _, [] => failAt .eofInValue []
  | w :: word, b :: rest => if b = w then literal word rest else failAt .expectedIdent rest

def asBytes (s : String) : Bytes := Text.encode s

/-! ## Strings -/

def hexValue? (b : UInt8) : Option Nat :=
  if isDigit b then some (digitValue b)
  else if 97 ≤ b ∧ b ≤ 102 then some (b.toNat - 87)
  else if 65 ≤ b ∧ b ≤ 70 then some (b.toNat - 55)
  else none

/-- Four hexadecimal digits. -/
def hex4 (bytes : Bytes) : Except Stop (Reading Nat) :=
  match bytes with
  | a :: b :: c :: d :: rest =>
    match hexValue? a, hexValue? b, hexValue? c, hexValue? d with
    | some a, some b, some c, some d => .ok (((a * 16 + b) * 16 + c) * 16 + d, rest)
    | _, _, _, _ => failAt .invalidEscape rest
  | _ => failAt .eofInString []

/-- The byte that continues a pair of surrogates. -/
def pairByte (expected : UInt8) (bytes : Bytes) : Except Stop Bytes :=
  match bytes with
  | [] => failAt .eofInString []
  | b :: rest => if b = expected then .ok rest else failAt .unfinishedSurrogate rest

/-- The character of a `\u` escape; characters beyond the first plane take two of them. -/
def unicodeEscape (bytes : Bytes) : Except Stop (Reading Char) := do
  let (n, rest) ← hex4 bytes
  if 0xDC00 ≤ n ∧ n ≤ 0xDFFF then failAt .loneSurrogate rest
  else if n < 0xD800 ∨ 0xDBFF < n then return (Char.ofNat n, rest)
  else
    let rest ← pairByte 92 rest
    let rest ← pairByte 117 rest
    let (m, rest) ← hex4 rest
    if m < 0xDC00 ∨ 0xDFFF < m then failAt .loneSurrogate rest
    else return (Char.ofNat ((n - 0xD800) * 0x400 + (m - 0xDC00) + 0x10000), rest)

/-- What a backslash and one letter stand for. -/
def simpleEscape? (b : UInt8) : Option UInt8 :=
  match b.toNat with
  | 34 => some 34
  | 92 => some 92
  | 47 => some 47
  | 98 => some 8
  | 102 => some 12
  | 110 => some 10
  | 114 => some 13
  | 116 => some 9
  | _ => none

/-- An escape behind its backslash, as the bytes it stands for. -/
def escape (bytes : Bytes) : Except Stop (Reading Bytes) :=
  match bytes with
  | [] => failAt .eofInString []
  | b :: rest =>
    if b = 117 then do
      let (c, rest) ← unicodeEscape rest
      return (Text.encode c.toString, rest)
    else
      match simpleEscape? b with
      | some v => .ok ([v], rest)
      | none => failAt .invalidEscape rest

/-- The bytes of a string behind its opening quote. `fuel` bounds the number of steps; the number
of bytes is enough. -/
def stringBytes : (fuel : Nat) → Bytes → Except Stop (Reading Bytes)
  | _, [] => failAt .eofInString []
  | 0, _ => failAt .eofInString []
  | fuel + 1, b :: rest =>
    if b = 34 then .ok ([], rest)
    else if b = 92 then do
      let (piece, rest) ← escape rest
      let (more, rest) ← stringBytes fuel rest
      return (piece ++ more, rest)
    else if b < 32 then failAt .controlCharacter rest
    else do
      let (more, rest) ← stringBytes fuel rest
      return (b :: more, rest)

/-- A string behind its opening quote. -/
def string (bytes : Bytes) : Except Stop (Reading String) := do
  let (raw, rest) ← stringBytes bytes.length bytes
  match Text.decode? raw with
  | some s => return (s, rest)
  | none => failAt .invalidCodePoint rest

/-- Passes over an escape behind its backslash. -/
def skipEscape (bytes : Bytes) : Except Stop Bytes :=
  match bytes with
  | [] => failAt .eofInString []
  | b :: rest =>
    if b = 117 then (hex4 rest).map (·.2)
    else if (simpleEscape? b).isSome then .ok rest
    else failAt .invalidEscape rest

/-- Passes over a string behind its opening quote. -/
def skipString : (fuel : Nat) → Bytes → Except Stop Bytes
  | _, [] => failAt .eofInString []
  | 0, _ => failAt .eofInString []
  | fuel + 1, b :: rest =>
    if b = 34 then .ok rest
    else if b = 92 then do
      let rest ← skipEscape rest
      skipString fuel rest
    else if b < 32 then failAt .controlCharacter (b :: rest)
    else skipString fuel rest

/-! ## Numbers -/

/-- The largest significand that is kept exactly. -/
def maxSignificand : Nat := 0xFFFFFFFFFFFFFFFF

/-- Ten to a small power. -/
def powerOfTen (n : Nat) : Float := Float.ofScientific 1 false n

/-- `f * 10 ^ exponent`, scaled by one power of ten, or by several when the exponent is far below
zero; `none` if the result is too large. -/
def scale (fuel : Nat) (f : Float) (exponent : Int) : Option Float :=
  if exponent.natAbs ≤ 308 then
    if exponent ≥ 0 then
      let f := f * powerOfTen exponent.natAbs
      if f.isInf then none else some f
    else some (f / powerOfTen exponent.natAbs)
  else if f == 0.0 then some f
  else if exponent ≥ 0 then none
  else
    match fuel with
    | 0 => some f
    | fuel + 1 => scale fuel (f / powerOfTen 308) (exponent + 308)

def double (negative : Bool) (f : Float) : Number := .double (if negative then -f else f).toBits

/-- The double with a decimal significand and exponent. -/
def scaled (negative : Bool) (significand : Nat) (exponent : Int) (rest : Bytes) :
    Except Stop (Reading Number) :=
  match scale 4 significand.toUInt64.toFloat exponent with
  | some f => .ok (double negative f, rest)
  | none => failAt .numberOutOfRange rest

/-- The largest exponent that is counted exactly. -/
def maxExponent : Int := 0x7FFFFFFF

/-- Adds exponents within the range of 32 bits. -/
def addExponents (a b : Int) : Int := max (-maxExponent - 1) (min maxExponent (a + b))

/-- The digits of an exponent; `none` if there are too many to count. -/
def exponentDigits (value : Int) : Bytes → Option Int × Bytes
  | [] => (some value, [])
  | b :: rest =>
    if isDigit b then
      if value * 10 + digitValue b > maxExponent then (none, rest)
      else exponentDigits (value * 10 + digitValue b) rest
    else (some value, b :: rest)

/-- An exponent behind its letter. -/
def exponent (negative : Bool) (significand : Nat) (start : Int) (bytes : Bytes) :
    Except Stop (Reading Number) :=
  let (down, bytes) : Bool × Bytes :=
    match bytes with
    | 43 :: rest => (false, rest)
    | 45 :: rest => (true, rest)
    | bytes => (false, bytes)
  match bytes with
  | [] => failAt .eofInValue []
  | b :: rest =>
    if isDigit b then
      match exponentDigits (digitValue b) rest with
      | (some value, rest) =>
        scaled negative significand (addExponents start (if down then -value else value)) rest
      | (none, rest) =>
        if significand ≠ 0 ∧ ¬down then failAt .numberOutOfRange rest
        else .ok (double negative 0.0, rest.dropWhile isDigit)
    else failAt .invalidNumber rest

/-- What may follow the digits of a number with a fraction. -/
def afterFraction (negative : Bool) (significand : Nat) (start : Int) (bytes : Bytes) :
    Except Stop (Reading Number) :=
  match bytes with
  | 101 :: rest | 69 :: rest => exponent negative significand start rest
  | bytes => scaled negative significand start bytes

/-- The digits of a fraction, while the significand can take them. -/
def fractionDigits (significand places : Nat) : Bytes → Nat × Nat × Bool × Bytes
  | [] => (significand, places, false, [])
  | b :: rest =>
    if isDigit b then
      if significand * 10 + digitValue b > maxSignificand then
        (significand, places, true, b :: rest)
      else fractionDigits (significand * 10 + digitValue b) (places + 1) rest
    else (significand, places, false, b :: rest)

/-- A fraction behind its point. -/
def fraction (negative : Bool) (significand : Nat) (start : Int) (bytes : Bytes) :
    Except Stop (Reading Number) :=
  let (significand, places, full, rest) := fractionDigits significand 0 bytes
  let exponent := start - places
  if full then afterFraction negative significand exponent (rest.dropWhile isDigit)
  else if places = 0 then
    match rest with
    | [] => failAt .eofInValue []
    | rest => failOn .invalidNumber rest
  else afterFraction negative significand exponent rest

/-- What may follow the digits of an integer, `extra` of which the significand could not take. -/
def afterInteger (negative : Bool) (significand extra : Nat) (long : Bool) (bytes : Bytes) :
    Except Stop (Reading Number) :=
  match bytes with
  | 46 :: rest => fraction negative significand extra rest
  | 101 :: rest | 69 :: rest => exponent negative significand extra rest
  | bytes =>
    if long then scaled negative significand extra bytes
    else if ¬negative then .ok (.integer significand, bytes)
    else if significand = 0 ∨ significand > 0x8000000000000000 then
      .ok (double true significand.toUInt64.toFloat, bytes)
    else .ok (.integer (-significand), bytes)

/-- The digits of an integer, while the significand can take them. -/
def integerDigits (significand : Nat) : Bytes → Nat × Bool × Bytes
  | [] => (significand, false, [])
  | b :: rest =>
    if isDigit b then
      if significand * 10 + digitValue b > maxSignificand then (significand, true, b :: rest)
      else integerDigits (significand * 10 + digitValue b) rest
    else (significand, false, b :: rest)

/-- A number behind its sign. -/
def unsigned (negative : Bool) (bytes : Bytes) : Except Stop (Reading Number) :=
  match bytes with
  | [] => failAt .eofInValue []
  | b :: rest =>
    if b = 48 then
      if rest.head?.any isDigit then failOn .invalidNumber rest
      else afterInteger negative 0 0 false rest
    else if isDigit b then
      let (significand, long, rest) := integerDigits (digitValue b) rest
      if long then
        let extra := (rest.takeWhile isDigit).length
        afterInteger negative significand extra true (rest.dropWhile isDigit)
      else afterInteger negative significand 0 false rest
    else failAt .invalidNumber rest

/-- Passes over an exponent behind its letter. -/
def skipExponent (bytes : Bytes) : Except Stop Bytes :=
  let bytes : Bytes :=
    match bytes with
    | 43 :: rest | 45 :: rest => rest
    | bytes => bytes
  match bytes with
  | [] => failAt .invalidNumber []
  | b :: rest => if isDigit b then .ok (rest.dropWhile isDigit) else failAt .invalidNumber rest

/-- Passes over a fraction behind its point. -/
def skipFraction (bytes : Bytes) : Except Stop Bytes :=
  if (bytes.takeWhile isDigit).isEmpty then failOn .invalidNumber bytes
  else
    match bytes.dropWhile isDigit with
    | 101 :: rest | 69 :: rest => skipExponent rest
    | rest => .ok rest

/-- Passes over a number behind its sign. -/
def skipNumber (bytes : Bytes) : Except Stop Bytes :=
  let tail (bytes : Bytes) : Except Stop Bytes :=
    match bytes with
    | 46 :: rest => skipFraction rest
    | 101 :: rest | 69 :: rest => skipExponent rest
    | rest => .ok rest
  match bytes with
  | [] => failAt .invalidNumber []
  | b :: rest =>
    if b = 48 then
      if rest.head?.any isDigit then failOn .invalidNumber rest else tail rest
    else if isDigit b then tail (rest.dropWhile isDigit)
    else failAt .invalidNumber rest

/-! ## Containers -/

/-- Whether another item follows in a list; the bytes then begin with it, else with the closing
bracket. -/
def nextItem (first : Bool) (bytes : Bytes) : Except Stop (Reading Bool) :=
  match skipBlanks bytes with
  | [] => failAt .eofInList []
  | 93 :: rest => .ok (false, 93 :: rest)
  | b :: rest =>
    if first then .ok (true, b :: rest)
    else if b = 44 then
      match skipBlanks rest with
      | [] => failAt .eofInValue []
      | 93 :: rest => failOn .trailingComma (93 :: rest)
      | rest => .ok (true, rest)
    else failOn .expectedListEnd (b :: rest)

/-- The name of the next member of an object, if there is one. -/
def nextName (first : Bool) (bytes : Bytes) : Except Stop (Reading (Option String)) :=
  let name (bytes : Bytes) : Except Stop (Reading (Option String)) := do
    let (s, rest) ← string bytes
    return (some s, rest)
  match skipBlanks bytes with
  | [] => failAt .eofInObject []
  | 125 :: rest => .ok (none, 125 :: rest)
  | b :: rest =>
    if first then
      if b = 34 then name rest else failOn .keyNotString (b :: rest)
    else if b = 44 then
      match skipBlanks rest with
      | [] => failAt .eofInValue []
      | 34 :: rest => name rest
      | 125 :: rest => failOn .trailingComma (125 :: rest)
      | rest => failOn .keyNotString rest
    else failOn .expectedObjectEnd (b :: rest)

/-- The colon behind a name. -/
def colon (bytes : Bytes) : Except Stop Bytes :=
  match skipBlanks bytes with
  | [] => failAt .eofInObject []
  | 58 :: rest => .ok rest
  | rest => failOn .expectedColon rest

/-- Closes a list. On failure the bytes are those at which reading stopped. -/
def closeList (bytes : Bytes) : Except Stop Unit × Bytes :=
  match skipBlanks bytes with
  | [] => (failAt .eofInList [], [])
  | 93 :: rest => (.ok (), rest)
  | 44 :: rest =>
    match skipBlanks rest with
    | 93 :: rest => (failOn .trailingComma (93 :: rest), 93 :: rest)
    | rest => (failOn .trailingCharacters rest, rest)
  | rest => (failOn .trailingCharacters rest, rest)

/-- Closes an object. On failure the bytes are those at which reading stopped. -/
def closeObject (bytes : Bytes) : Except Stop Unit × Bytes :=
  match skipBlanks bytes with
  | [] => (failAt .eofInObject [], [])
  | 125 :: rest => (.ok (), rest)
  | 44 :: rest => (failOn .trailingComma (44 :: rest), 44 :: rest)
  | rest => (failOn .trailingCharacters rest, rest)

/-- Ends a container. A fault of the shape inside it is placed where its end was found. -/
def finish {α : Type} (close : Bytes → Except Stop Unit × Bytes)
    (inside : Except Stop (Reading α)) : Except Stop (Reading α) :=
  match inside with
  | .ok (a, rest) =>
    match close rest with
    | (.ok (), rest) => .ok (a, rest)
    | (.error stop, _) => .error stop
  | .error stop =>
    if stop.placed then .error stop
    else .error ⟨stop.fault, (close stop.left).2, true⟩

/-- The items of a list behind its bracket. `fuel` bounds their number. -/
def items {α : Type} (item : Bytes → Except Stop (Reading α)) :
    (fuel : Nat) → (first : Bool) → Bytes → Except Stop (Reading (List α))
  | 0, _, _ => failAt .eofInList []
  | fuel + 1, first, bytes => do
    let (more, rest) ← nextItem first bytes
    if more then
      let (a, rest) ← item rest
      let (as, rest) ← items item fuel false rest
      return (a :: as, rest)
    else return ([], rest)

/-- The members of an object behind its brace, each handed to `member` with what the members before
it gave. -/
def members {σ : Type} (member : σ → String → Bytes → Except Stop (Reading σ)) :
    (fuel : Nat) → (first : Bool) → σ → Bytes → Except Stop (Reading σ)
  | 0, _, _, _ => failAt .eofInObject []
  | fuel + 1, first, state, bytes => do
    let (name, rest) ← nextName first bytes
    match name with
    | some name =>
      let (state, rest) ← member state name rest
      members member fuel false state rest
    | none => return (state, rest)

/-! ## Values -/

/-- How many containers may be open at once. -/
def maxDepth : Nat := 127

/-- A value with at most `depth` containers inside each other. -/
def value (depth : Nat) (bytes : Bytes) : Except Stop (Reading Json) :=
  match skipBlanks bytes with
  | [] => failAt .eofInValue []
  | 110 :: rest => (literal (asBytes "ull") rest).map (Json.null, ·)
  | 116 :: rest => (literal (asBytes "rue") rest).map (Json.boolean true, ·)
  | 102 :: rest => (literal (asBytes "alse") rest).map (Json.boolean false, ·)
  | 34 :: rest => (string rest).map fun (s, rest) => (Json.string s, rest)
  | 45 :: rest => (unsigned true rest).map fun (n, rest) => (Json.number n, rest)
  | 91 :: rest =>
    match depth with
    | 0 => failAt .tooDeep rest
    | depth + 1 =>
      (finish closeList (items (value depth) (rest.length + 1) true rest)).map
        fun (items, rest) => (Json.array items, rest)
  | 123 :: rest =>
    match depth with
    | 0 => failAt .tooDeep rest
    | depth + 1 =>
      let member (done : List (String × Json)) (name : String) (bytes : Bytes) :
          Except Stop (Reading (List (String × Json))) := do
        let rest ← colon bytes
        let (v, rest) ← value depth rest
        return ((name, v) :: done, rest)
      (finish closeObject (members member (rest.length + 1) true [] rest)).map
        fun (members, rest) => (Json.object members.reverse, rest)
  | b :: rest =>
    if isDigit b then (unsigned false (b :: rest)).map fun (n, rest) => (Json.number n, rest)
    else failOn .expectedValue (b :: rest)

/-! ## Passing over values -/

/-- The kinds of container. -/
inductive Bracket where
  | list
  | object
deriving DecidableEq, Repr

namespace Bracket

def close : Bracket → UInt8
  | list => 93
  | object => 125

def atEof : Bracket → TextFault
  | list => .eofInList
  | object => .eofInObject

def atOther : Bracket → TextFault
  | list => .expectedListEnd
  | object => .expectedObjectEnd

end Bracket

/-- Passes over the name of a member and the colon behind it. -/
def skipName (bytes : Bytes) : Except Stop Bytes :=
  match skipBlanks bytes with
  | [] => failAt .eofInObject []
  | 34 :: rest => do
    let rest ← skipString rest.length rest
    colon rest
  | rest => failOn .keyNotString rest

/-- What stands in front of the next value inside `bracket`. -/
def skipToValue (bracket : Bracket) (bytes : Bytes) : Except Stop Bytes :=
  match bracket with
  | .list => .ok bytes
  | .object => skipName bytes

mutual

/-- Passes over a value inside the open brackets of the stack, and then over what closes them. -/
def skipValue : (fuel : Nat) → (stack : List Bracket) → Bytes → Except Stop Bytes
  | 0, _, _ => failAt .eofInValue []
  | fuel + 1, stack, bytes =>
    match skipBlanks bytes with
    | [] => failAt .eofInValue []
    | 110 :: rest => do afterValue fuel stack (← literal (asBytes "ull") rest)
    | 116 :: rest => do afterValue fuel stack (← literal (asBytes "rue") rest)
    | 102 :: rest => do afterValue fuel stack (← literal (asBytes "alse") rest)
    | 34 :: rest => do afterValue fuel stack (← skipString rest.length rest)
    | 45 :: rest => do afterValue fuel stack (← skipNumber rest)
    | 91 :: rest => insideBracket fuel .list stack false rest
    | 123 :: rest => insideBracket fuel .object stack false rest
    | b :: rest =>
      if isDigit b then do afterValue fuel stack (← skipNumber (b :: rest))
      else failOn .expectedValue (b :: rest)

/-- Goes on behind a value. -/
def afterValue : (fuel : Nat) → (stack : List Bracket) → Bytes → Except Stop Bytes
  | 0, _, _ => failAt .eofInValue []
  | _ + 1, [], bytes => .ok bytes
  | fuel + 1, bracket :: stack, bytes => insideBracket fuel bracket stack true bytes

/-- Goes on inside `bracket`, behind a value or behind the bracket itself. -/
def insideBracket : (fuel : Nat) → (bracket : Bracket) → (stack : List Bracket) →
    (behindValue : Bool) → Bytes → Except Stop Bytes
  | 0, _, _, _, _ => failAt .eofInValue []
  | fuel + 1, bracket, stack, behindValue, bytes =>
    match skipBlanks bytes with
    | [] => failAt bracket.atEof []
    | b :: rest =>
      if b = bracket.close then afterValue fuel stack rest
      else if behindValue then
        if b = 44 then do
          let rest ← skipToValue bracket rest
          skipValue fuel (bracket :: stack) rest
        else failOn bracket.atOther (b :: rest)
      else do
        let rest ← skipToValue bracket (b :: rest)
        skipValue fuel (bracket :: stack) rest

end

/-- Passes over a value. -/
def skip (bytes : Bytes) : Except Stop Bytes := skipValue (3 * bytes.length + 3) [] bytes

/-- Only blanks may follow the last value of a text. -/
def endOfText (bytes : Bytes) : Except Stop Unit :=
  match skipBlanks bytes with
  | [] => .ok ()
  | rest => failOn .trailingCharacters rest

end Reader

/-- The value that a text holds. -/
def read (bytes : Bytes) : Except Stop Json := do
  let (value, rest) ← Reader.value Reader.maxDepth bytes
  Reader.endOfText rest
  return value

/-- The value that a text holds, or what is wrong with it and where. -/
def parse (text : String) : Except String Json :=
  let bytes := Text.encode text
  (read bytes).mapError (·.message bytes)

end SchemaCompiler.Json
