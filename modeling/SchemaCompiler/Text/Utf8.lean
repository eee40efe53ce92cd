/-!
Text as bytes.

Encoding writes each character as one to four bytes. Decoding splits a byte sequence into characters
and malformed parts; a malformed part is the longest piece that some character could begin with, or
a single byte.
-/

namespace SchemaCompiler

/-- A byte sequence. -/
abbrev Bytes := List UInt8

namespace Text

def encode (s : String) : Bytes := s.toUTF8.data.toList

/-- The text of a well-formed byte sequence. -/
def decode? (bytes : Bytes) : Option String := String.fromUTF8? ⟨bytes.toArray⟩

/-- Reads `count` trailing bytes of a character whose bits so far are `bits`. The next byte has to
lie between `low` and `high`; the bytes after it carry the usual six bits. -/
def trailing : (count low high bits : Nat) → Bytes → Option Nat × Bytes
  | 0, _, _, bits, rest => (some bits, rest)
  | _ + 1, _, _, _, [] => (none, [])
  | count + 1, low, high, bits, b :: rest =>
    if low ≤ b.toNat ∧ b.toNat ≤ high then
      trailing count 0x80 0xBF (bits * 64 + (b.toNat - 0x80)) rest
    else (none, b :: rest)

theorem length_trailing_le (count low high bits : Nat) (rest : Bytes) :
    (trailing count low high bits rest).2.length ≤ rest.length := by
  fun_induction trailing count low high bits rest with
  | case1 => simp
  | case2 => simp
  | case3 count low high bits b rest h ih => simp only [List.length_cons]; omega
  | case4 => simp

/-- One character, given its first byte, and what follows it. -/
def scalar (first : UInt8) (rest : Bytes) : Option Nat × Bytes :=
  let n := first.toNat
  if n < 0x80 then (some n, rest)
  else if n < 0xC2 then (none, rest)
  else if n < 0xE0 then trailing 1 0x80 0xBF (n - 0xC0) rest
  else if n = 0xE0 then trailing 2 0xA0 0xBF 0 rest
  else if n = 0xED then trailing 2 0x80 0x9F 0xD rest
  else if n < 0xF0 then trailing 2 0x80 0xBF (n - 0xE0) rest
  else if n = 0xF0 then trailing 3 0x90 0xBF 0 rest
  else if n < 0xF4 then trailing 3 0x80 0xBF (n - 0xF0) rest
  else if n = 0xF4 then trailing 3 0x80 0x8F 4 rest
  else (none, rest)

theorem length_scalar_le (first : UInt8) (rest : Bytes) :
    (scalar first rest).2.length ≤ rest.length := by
  unfold scalar
  simp only
  repeat' split
  all_goals first
    | exact Nat.le_refl _
    | exact length_trailing_le _ _ _ _ _

/-- The characters of a byte sequence in order, with `none` for a malformed part. -/
def pieces : Bytes → List (Option Char)
  | [] => []
  | b :: rest =>
    ((scalar b rest).1.map Char.ofNat) :: pieces (scalar b rest).2
termination_by bytes => bytes.length
decreasing_by
  have := length_scalar_le b rest
  simp only [List.length_cons]
  omega

/-- The text of any byte sequence; a malformed part reads as the replacement character. -/
def decodeLossy (bytes : Bytes) : String :=
  String.ofList ((pieces bytes).map (·.getD '\uFFFD'))

end Text

end SchemaCompiler
