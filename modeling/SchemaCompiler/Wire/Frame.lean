import SchemaCompiler.Text.Utf8

/-!
Frames: a payload behind its length.

The length takes four bytes, the highest first. Payloads of more than 256 MiB are refused on both
sides.
-/

namespace SchemaCompiler.Frame

/-- The length of the longest payload. -/
def maxLength : Nat := 256 * 1024 * 1024

inductive Fault where
  /-- Not even the length was there. -/
  | noLength
  | tooLarge (length : Nat)
  | truncated (expected actual : Nat)
  /-- Bytes behind the only frame. -/
  | trailing (count : Nat)
deriving DecidableEq, Repr

def Fault.message : Fault → String
  | noLength => "frame I/O error: failed to fill whole buffer"
  | tooLarge length =>
    "frame of " ++ toString length ++ " bytes exceeds the " ++ toString maxLength ++ " byte limit"
  | truncated expected actual =>
    "truncated frame: expected " ++ toString expected ++ " payload bytes, got " ++ toString actual
  | trailing count => toString count ++ " unexpected trailing bytes after frame"

/-- A length as four bytes. -/
def header (length : Nat) : Bytes :=
  [(length / 0x1000000 % 256).toUInt8, (length / 0x10000 % 256).toUInt8,
    (length / 0x100 % 256).toUInt8, (length % 256).toUInt8]

def write (payload : Bytes) : Except Fault Bytes :=
  if payload.length ≤ maxLength then .ok (header payload.length ++ payload)
  else .error (.tooLarge payload.length)

/-- The payload of the first frame and the bytes behind it. -/
def read : Bytes → Except Fault (Bytes × Bytes)
  | a :: b :: c :: d :: rest =>
    let length := ((a.toNat * 256 + b.toNat) * 256 + c.toNat) * 256 + d.toNat
    if length > maxLength then .error (.tooLarge length)
    else if rest.length < length then .error (.truncated length rest.length)
    else .ok (rest.take length, rest.drop length)
  | _ => .error .noLength

/-- The payload of a frame that is all there is. -/
def readOnly (bytes : Bytes) : Except Fault Bytes := do
  let (payload, rest) ← read bytes
  if rest.isEmpty then return payload else throw (.trailing rest.length)

/-- Every frame takes bytes. -/
theorem length_lt_of_read {bytes payload rest : Bytes} (h : read bytes = .ok (payload, rest)) :
    rest.length < bytes.length := by
  unfold read at h
  split at h
  · simp only at h
    split at h
    · cases h
    · split at h
      · cases h
      · cases h
        simp only [List.length_cons, List.length_drop]
        omega
  · cases h

/-- The payloads of successive frames, each with the bytes behind it, up to the first fault. -/
def readAll (bytes : Bytes) : List (Bytes × Bytes) × Fault :=
  match _h : read bytes with
  | .error fault => ([], fault)
  | .ok (payload, rest) =>
    let (frames, fault) := readAll rest
    ((payload, rest) :: frames, fault)
termination_by bytes.length
decreasing_by exact length_lt_of_read _h

end SchemaCompiler.Frame
