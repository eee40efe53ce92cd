import SchemaCompiler.Text.Utf8

/-!
Bytes as text in base 64.

Three bytes are written as four letters. A group at the end with one or two bytes is padded with
`=` to four letters, and its last letter has no bits beyond those of the bytes. Decoding accepts
nothing but such text.
-/

namespace SchemaCompiler.Base64

/-! ## Letters -/

/-- The letter for a number below 64. -/
def letter (n : Nat) : Char :=
  if n < 26 then Char.ofNat (65 + n)
  else if n < 52 then Char.ofNat (97 + (n - 26))
  else if n < 62 then Char.ofNat (48 + (n - 52))
  else if n = 62 then '+'
  else '/'

/-- The number that a letter stands for. -/
def value? (b : UInt8) : Option Nat :=
  let n := b.toNat
  if 65 ≤ n ∧ n ≤ 90 then some (n - 65)
  else if 97 ≤ n ∧ n ≤ 122 then some (n - 97 + 26)
  else if 48 ≤ n ∧ n ≤ 57 then some (n - 48 + 52)
  else if n = 43 then some 62
  else if n = 47 then some 63
  else none

/-- The padding letter. -/
def pad : UInt8 := 61

/-! ## Encoding -/

def encodeChars : Bytes → List Char
  | [] => []
  | [a] =>
    let n := a.toNat * 16
    [letter (n / 64), letter (n % 64), '=', '=']
  | [a, b] =>
    let n := (a.toNat * 256 + b.toNat) * 4
    [letter (n / 4096), letter (n / 64 % 64), letter (n % 64), '=']
  | a :: b :: c :: rest =>
    let n := (a.toNat * 256 + b.toNat) * 256 + c.toNat
    letter (n / 262144) :: letter (n / 4096 % 64) :: letter (n / 64 % 64) :: letter (n % 64) ::
      encodeChars rest

def encode (bytes : Bytes) : String := String.ofList (encodeChars bytes)

/-! ## Decoding -/

/-- Why a text is not the text of any bytes. -/
inductive Fault where
  | symbol (byte : UInt8) (offset : Nat)
  | lastSymbol (byte : UInt8) (offset : Nat)
  | length (n : Nat)
  | padding
deriving DecidableEq, Repr

def Fault.message : Fault → String
  | symbol byte offset =>
    "Invalid symbol " ++ toString byte.toNat ++ ", offset " ++ toString offset ++ "."
  | lastSymbol byte offset =>
    "Invalid last symbol " ++ toString byte.toNat ++ ", offset " ++ toString offset ++ "."
  | length n => "Invalid input length: " ++ toString n
  | padding => "Invalid padding"

/-- The numbers of the letters from `offset` on. -/
def values (offset : Nat) : Bytes → Except Fault (List Nat)
  | [] => .ok []
  | b :: rest =>
    match value? b with
    | none => .error (.symbol b offset)
    | some n => do return n :: (← values (offset + 1) rest)

/-- The bytes of two to four letters, and whether bits are left over. -/
def join : List Nat → Bytes × Bool
  | [a, b] => ([(a * 4 + b / 16).toUInt8], b % 16 != 0)
  | [a, b, c] =>
    let n := (a * 64 + b) * 64 + c
    ([(n / 1024).toUInt8, (n / 4 % 256).toUInt8], c % 4 != 0)
  | [a, b, c, d] =>
    let n := ((a * 64 + b) * 64 + c) * 64 + d
    ([(n / 65536).toUInt8, (n / 256 % 256).toUInt8, (n % 256).toUInt8], false)
  | _ => ([], false)

/-- The bytes of the last group, which may be padded. -/
def lastGroup (offset : Nat) (group : Bytes) : Except Fault Bytes := do
  let letters := group.takeWhile (· != pad)
  let pads := group.dropWhile (· != pad)
  let numbers ← values offset letters
  if ¬pads.isEmpty ∧ (letters.length < 2 ∨ ¬pads.all (· == pad)) then
    throw (.symbol pad (offset + letters.length))
  if letters.length < 2 then throw (.length (offset + letters.length))
  if group.length ≠ 4 then throw .padding
  let (bytes, left) := join numbers
  if left then
    throw (.lastSymbol (letters.getLast?.getD 0) (offset + letters.length - 1))
  return bytes

/-- The bytes of a text from `offset` on: groups of four letters and then the last group. -/
def decodeFrom (offset : Nat) : Bytes → Except Fault Bytes
  | a :: b :: c :: d :: e :: rest => do
    let bytes := (join (← values offset [a, b, c, d])).1
    return bytes ++ (← decodeFrom (offset + 4) (e :: rest))
  | [] => .ok []
  | group => lastGroup offset group

/-- A byte at the end that can be in no text is reported before all else, if it begins a group. -/
def strayEnd? (bytes : Bytes) : Option UInt8 :=
  if bytes.length % 4 = 1 then
    bytes.getLast?.filter fun b => b != pad && (value? b).isNone
  else none

def decodeBytes (bytes : Bytes) : Except Fault Bytes :=
  match strayEnd? bytes with
  | some b => .error (.symbol b (bytes.length - 1))
  | none => decodeFrom 0 bytes

def decode (text : String) : Except Fault Bytes := decodeBytes (Text.encode text)

end SchemaCompiler.Base64
