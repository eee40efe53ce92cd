import SchemaCompiler.Wire.Message

/-!
Frames delimit themselves.

A frame is read up to its end and no further, so frames in a row are read back one by one. A frame
of which the end is missing, or behind which there is more, holds no message, and the fault counts
the bytes.
-/

namespace SchemaCompiler

namespace Frame

/-! ## Lengths -/

/-- The number that four bytes spell, the highest byte first. -/
def lengthOf (a b c d : UInt8) : Nat :=
  ((a.toNat * 256 + b.toNat) * 256 + c.toNat) * 256 + d.toNat

theorem header_eq_cons {n : Nat} (h : n ≤ maxLength) :
    ∃ a b c d : UInt8, header n = [a, b, c, d] ∧ lengthOf a b c d = n := by
  refine ⟨_, _, _, _, rfl, ?_⟩
  simp only [maxLength] at h
  simp only [lengthOf, Nat.toUInt8, UInt8.toNat_ofNat', Nat.reducePow]
  omega

theorem length_header (n : Nat) : (header n).length = 4 := rfl

theorem write_eq_ok_iff {payload frame : Bytes} :
    write payload = .ok frame ↔
      payload.length ≤ maxLength ∧ header payload.length ++ payload = frame := by
  unfold write
  split
  · next fits => simp [fits]
  · next long => simp [long]

theorem read_of_long {a b c d : UInt8} (h : maxLength < lengthOf a b c d) (rest : Bytes) :
    read (a :: b :: c :: d :: rest) = .error (.tooLarge (lengthOf a b c d)) := by
  simp only [read]
  exact if_pos h

/-- A length that is not refused decides alone how far the payload goes. -/
theorem read_of_fits {a b c d : UInt8} (h : lengthOf a b c d ≤ maxLength) (rest : Bytes) :
    read (a :: b :: c :: d :: rest) =
      if rest.length < lengthOf a b c d then .error (.truncated (lengthOf a b c d) rest.length)
      else .ok (rest.take (lengthOf a b c d), rest.drop (lengthOf a b c d)) := by
  simp only [read]
  exact if_neg (Nat.not_lt.mpr h)

theorem read_refuses_iff (a b c d : UInt8) (rest : Bytes) (n : Nat) :
    read (a :: b :: c :: d :: rest) = .error (.tooLarge n) ↔
      maxLength < lengthOf a b c d ∧ n = lengthOf a b c d := by
  by_cases long : maxLength < lengthOf a b c d
  · rw [read_of_long long]
    simp [long, eq_comm]
  · rw [read_of_fits (Nat.not_lt.mp long)]
    split <;> simp [long]

theorem read_of_length_lt {bytes : Bytes} (h : bytes.length < 4) :
    read bytes = .error .noLength := by
  match bytes, h with
  | [], _ | [_], _ | [_, _], _ | [_, _, _], _ => rfl

/-! ## One frame -/

section

variable {payload : Bytes} (fits : payload.length ≤ maxLength)
include fits

/-- The payload ends where the length says, whatever stands behind it. -/
theorem read_frame (rest : Bytes) :
    read (header payload.length ++ payload ++ rest) = .ok (payload, rest) := by
  obtain ⟨a, b, c, d, spelled, length⟩ := header_eq_cons fits
  have whole : ¬(payload ++ rest).length < lengthOf a b c d := by
    rw [length, List.length_append]
    omega
  rw [spelled, List.append_assoc]
  simp only [List.cons_append, List.nil_append]
  rw [read_of_fits (length ▸ fits), if_neg whole, length, List.take_left, List.drop_left]

/-- What is left of a frame when its end is cut off. -/
theorem read_take_frame {k : Nat} (cut : k < payload.length + 4) :
    read ((header payload.length ++ payload).take k) =
      .error (if k < 4 then .noLength else .truncated payload.length (k - 4)) := by
  split
  · next short =>
    refine read_of_length_lt ?_
    rw [List.length_take]
    omega
  · next long =>
    obtain ⟨a, b, c, d, spelled, length⟩ := header_eq_cons fits
    obtain ⟨kept, rfl⟩ : ∃ kept, k = kept + 4 := ⟨k - 4, by omega⟩
    have taken : (payload.take kept).length = kept := by
      rw [List.length_take]
      omega
    have missing : (payload.take kept).length < lengthOf a b c d := by
      rw [taken, length]
      omega
    rw [spelled]
    simp only [List.cons_append, List.nil_append, List.take_succ_cons]
    rw [read_of_fits (length ▸ fits), if_pos missing, taken, length, Nat.add_sub_cancel]

theorem readOnly_frame : readOnly (header payload.length ++ payload) = .ok payload := by
  have whole := read_frame fits []
  rw [List.append_nil] at whole
  rw [readOnly, whole]
  rfl

theorem readOnly_extended {more : Bytes} (behind : more ≠ []) :
    readOnly (header payload.length ++ payload ++ more) = .error (.trailing more.length) := by
  have given : more.isEmpty = false := List.isEmpty_eq_false_iff.mpr behind
  rw [readOnly, read_frame fits]
  change (if more.isEmpty = true then _ else _) = _
  rw [given]
  rfl

theorem readOnly_take {k : Nat} (cut : k < payload.length + 4) :
    readOnly ((header payload.length ++ payload).take k) =
      .error (if k < 4 then .noLength else .truncated payload.length (k - 4)) := by
  rw [readOnly, read_take_frame fits cut]
  rfl

end

/-! ## Frames in a row -/

/-- Payloads written one after another. -/
def writeAll (payloads : List Bytes) : Except Fault Bytes := do
  let frames ← payloads.mapM write
  return frames.flatten

/-- The payloads of so many frames, read one after another, and the bytes behind them. -/
def readMany : Nat → Bytes → Except Fault (List Bytes × Bytes)
  | 0, bytes => .ok ([], bytes)
  | count + 1, bytes => do
    let (payload, rest) ← read bytes
    let (payloads, left) ← readMany count rest
    return (payload :: payloads, left)

theorem writeAll_cons {payload : Bytes} (fits : payload.length ≤ maxLength) {payloads : List Bytes}
    {frames : Bytes} (written : writeAll payloads = .ok frames) :
    writeAll (payload :: payloads) = .ok (header payload.length ++ payload ++ frames) := by
  unfold writeAll at written ⊢
  have first : write payload = .ok (header payload.length ++ payload) :=
    write_eq_ok_iff.mpr ⟨fits, rfl⟩
  rw [List.mapM_cons, first]
  cases later : payloads.mapM write with
  | error fault =>
    rw [later] at written
    cases written
  | ok others =>
    rw [later] at written
    cases written
    rfl

theorem readMany_cons {payload rest left : Bytes} {bytes : Bytes} {count : Nat}
    {payloads : List Bytes} (first : read bytes = .ok (payload, rest))
    (later : readMany count rest = .ok (payloads, left)) :
    readMany (count + 1) bytes = .ok (payload :: payloads, left) := by
  rw [readMany, first]
  change (readMany count rest >>= _) = _
  rw [later]
  rfl

/-- As many frames as were written are read back, and nothing behind them. -/
theorem readMany_writeAll {payloads : List Bytes}
    (fit : ∀ payload ∈ payloads, payload.length ≤ maxLength) (trailing : Bytes) :
    ∃ frames, writeAll payloads = .ok frames ∧
      readMany payloads.length (frames ++ trailing) = .ok (payloads, trailing) := by
  induction payloads with
  | nil => exact ⟨[], rfl, rfl⟩
  | cons payload payloads ih =>
    obtain ⟨fits, others⟩ := List.forall_mem_cons.mp fit
    obtain ⟨frames, written, back⟩ := ih others
    refine ⟨_, writeAll_cons fits written, ?_⟩
    have first := read_frame fits (frames ++ trailing)
    rw [← List.append_assoc] at first
    exact readMany_cons first back

end Frame

/-! ## Messages -/

namespace Wire

/-- The bytes are a whole message: with an end cut off, or with more behind them, they are none, and
the fault says how many bytes there were. -/
structure IsWhole {α : Type} (decode : Bytes → Except WireFault α) (bytes : Bytes) : Prop where
  cut : ∀ k < bytes.length, decode (bytes.take k) =
    .error (.frame (if k < 4 then .noLength else .truncated (bytes.length - 4) (k - 4)))
  extended : ∀ more ≠ [], decode (bytes ++ more) = .error (.frame (.trailing more.length))

theorem decode_of_readOnly {α : Type}
    (read : Nat → Bytes → Except Json.Stop (Json.Reader.Reading α)) {bytes : Bytes}
    {fault : Frame.Fault} (h : Frame.readOnly bytes = .error fault) :
    decode read bytes = .error (.frame fault) := by
  rw [decode, h]
  rfl

theorem encode_eq_ok {message : Json} {bytes : Bytes} (h : encode message = .ok bytes) :
    ∃ payload : Bytes, payload.length ≤ Frame.maxLength ∧
      bytes = Frame.header payload.length ++ payload := by
  unfold encode at h
  cases written : Frame.write (Text.encode message.text) with
  | error fault =>
    rw [written] at h
    cases h
  | ok frame =>
    rw [written] at h
    cases h
    obtain ⟨fits, rfl⟩ := Frame.write_eq_ok_iff.mp written
    exact ⟨_, fits, rfl⟩

theorem isWhole_of_encode {α : Type}
    (read : Nat → Bytes → Except Json.Stop (Json.Reader.Reading α)) {message : Json} {bytes : Bytes}
    (h : encode message = .ok bytes) : IsWhole (decode read) bytes := by
  obtain ⟨payload, fits, rfl⟩ := encode_eq_ok h
  have length : (Frame.header payload.length ++ payload).length = payload.length + 4 := by
    rw [List.length_append, Frame.length_header, Nat.add_comm]
  constructor
  · intro k cut
    rw [length] at cut
    rw [length, Nat.add_sub_cancel]
    exact decode_of_readOnly read (Frame.readOnly_take fits cut)
  · intro more behind
    exact decode_of_readOnly read (Frame.readOnly_extended fits behind)

end Wire

/-- Exactly the payloads that are not too long are written, and exactly the lengths beyond that are
refused. Payloads written in a row are read back in order up to the bytes behind them, and the
frames of messages are whole. -/
theorem Frame.delimit_themselves :
    (∀ payload : Bytes, (∃ frame, write payload = .ok frame) ↔ payload.length ≤ maxLength) ∧
      (∀ (a b c d : UInt8) (rest : Bytes),
        (∃ n, read (a :: b :: c :: d :: rest) = .error (.tooLarge n)) ↔
          maxLength < lengthOf a b c d) ∧
      (∀ (payloads : List Bytes) (trailing : Bytes),
        (∀ payload ∈ payloads, payload.length ≤ maxLength) →
          ∃ frames, writeAll payloads = .ok frames ∧
            readMany payloads.length (frames ++ trailing) = .ok (payloads, trailing)) ∧
      (∀ (r : Request) (bytes : Bytes), r.encode = .ok bytes → Wire.IsWhole Request.decode bytes) ∧
      ∀ (r : Response) (bytes : Bytes), r.encode = .ok bytes →
        Wire.IsWhole Response.decode bytes := by
  refine ⟨fun payload => ?_, fun a b c d rest => ?_, fun payloads trailing fit => ?_,
    fun r bytes h => ?_, fun r bytes h => ?_⟩
  · simp [write_eq_ok_iff]
  · simp [read_refuses_iff]
  · exact readMany_writeAll fit trailing
  · exact Wire.isWhole_of_encode Request.read h
  · exact Wire.isWhole_of_encode Response.read h

/-- An empty payload between others, with the beginning of a frame behind them, and two messages. -/
theorem Frame.delimit_themselves_sample :
    (∀ payload ∈ ([[1, 2], [], [255]] : List Bytes), payload.length ≤ maxLength) ∧
      (∃ frames, writeAll [[1, 2], [], [255]] = .ok frames ∧
        readMany 3 (frames ++ [0, 0]) = .ok ([[1, 2], [], [255]], [0, 0])) ∧
      (∃ bytes, (Request.mk ["a"] "" []).encode = .ok bytes ∧ Wire.IsWhole Request.decode bytes) ∧
      ∃ bytes, (Response.mk "no" []).encode = .ok bytes ∧
        Wire.IsWhole Response.decode bytes := by
  obtain ⟨-, -, rows, requests, responses⟩ := Frame.delimit_themselves
  have fit : ∀ payload ∈ ([[1, 2], [], [255]] : List Bytes), payload.length ≤ maxLength := by
    decide
  obtain ⟨asked, encoded⟩ : ∃ bytes, (Request.mk ["a"] "" []).encode = .ok bytes := ⟨_, rfl⟩
  obtain ⟨answer, encoded'⟩ : ∃ bytes, (Response.mk "no" []).encode = .ok bytes := ⟨_, rfl⟩
  exact ⟨fit, rows _ [0, 0] fit, ⟨asked, encoded, requests _ _ encoded⟩,
    ⟨answer, encoded', responses _ _ encoded'⟩⟩

end SchemaCompiler
