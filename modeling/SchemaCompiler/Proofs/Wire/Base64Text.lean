import SchemaCompiler.Proofs.Text.Encoding
import SchemaCompiler.Wire.Base64

/-!
Padded base 64 inverts: the text of any bytes decodes to these bytes.

A text is a row of groups of four letters. All of them but the last stand for three bytes, and the
last one stands for one to three, with padding in place of the letters that it lacks.
-/

namespace SchemaCompiler.Base64

/-! ## Letters -/

/-- A letter as a byte of a text. -/
def letterByte (n : Nat) : UInt8 := (letter n).toNat.toUInt8

theorem letter_facts : ∀ n < 64,
    value? (letterByte n) = some n ∧ letterByte n ≠ pad ∧ (letter n).toNat < 128 := by
  decide

theorem values_letters {numbers : List Nat} (small : ∀ n ∈ numbers, n < 64) (offset : Nat) :
    values offset (numbers.map letterByte) = .ok numbers := by
  induction numbers generalizing offset with
  | nil => rfl
  | cons n numbers ih =>
    rw [List.forall_mem_cons] at small
    have known := (letter_facts n small.1).1
    have rest := ih small.2 (offset + 1)
    rw [List.map_cons, values, known]
    simp only [rest]
    rfl

/-! ## Groups -/

/-- The numbers of the letters for one to three bytes. -/
def numbersOf : Bytes → List Nat
  | [a] =>
    let n := a.toNat * 16
    [n / 64, n % 64]
  | [a, b] =>
    let n := (a.toNat * 256 + b.toNat) * 4
    [n / 4096, n / 64 % 64, n % 64]
  | [a, b, c] =>
    let n := (a.toNat * 256 + b.toNat) * 256 + c.toNat
    [n / 262144, n / 4096 % 64, n / 64 % 64, n % 64]
  | _ => []

theorem numbersOf_lt (group : Bytes) : ∀ n ∈ numbersOf group, n < 64 := by
  fun_cases numbersOf group with
  | case1 a n =>
    have ha := a.toNat_lt
    simp only [List.mem_cons, List.not_mem_nil, or_false, forall_eq_or_imp, forall_eq]
    omega
  | case2 a b n =>
    have ha := a.toNat_lt
    have hb := b.toNat_lt
    simp only [List.mem_cons, List.not_mem_nil, or_false, forall_eq_or_imp, forall_eq]
    omega
  | case3 a b c n =>
    have ha := a.toNat_lt
    have hb := b.toNat_lt
    have hc := c.toNat_lt
    simp only [List.mem_cons, List.not_mem_nil, or_false, forall_eq_or_imp, forall_eq]
    omega
  | case4 => exact List.forall_mem_nil _

theorem toUInt8_of_eq {n : Nat} {b : UInt8} (h : n = b.toNat) : n.toUInt8 = b := by
  rw [h, Nat.toUInt8, UInt8.ofNat_toNat]

/-- No bit of a group is lost in its letters, and none is left over. -/
theorem join_numbersOf {group : Bytes} (one : group ≠ []) (three : group.length ≤ 3) :
    join (numbersOf group) = (group, false) := by
  match group, three with
  | [a], _ =>
    have byte : a.toNat * 16 / 64 * 4 + a.toNat * 16 % 64 / 16 = a.toNat := by omega
    have none_left : a.toNat * 16 % 64 % 16 = 0 := by omega
    simp only [numbersOf, join, toUInt8_of_eq byte, none_left]
    rfl
  | [a, b], _ =>
    have ha := a.toNat_lt
    have hb := b.toNat_lt
    generalize same : (a.toNat * 256 + b.toNat) * 4 = n
    have number : (n / 4096 * 64 + n / 64 % 64) * 64 + n % 64 = n := by omega
    have first : n / 1024 = a.toNat := by omega
    have second : n / 4 % 256 = b.toNat := by omega
    have none_left : n % 64 % 4 = 0 := by omega
    simp only [numbersOf, same, join, number, toUInt8_of_eq first, toUInt8_of_eq second, none_left]
    rfl
  | [a, b, c], _ =>
    have ha := a.toNat_lt
    have hb := b.toNat_lt
    have hc := c.toNat_lt
    generalize same : (a.toNat * 256 + b.toNat) * 256 + c.toNat = n
    have number : ((n / 262144 * 64 + n / 4096 % 64) * 64 + n / 64 % 64) * 64 + n % 64 = n := by
      omega
    have first : n / 65536 = a.toNat := by omega
    have second : n / 256 % 256 = b.toNat := by omega
    have third : n % 256 = c.toNat := by omega
    simp only [numbersOf, same, join, number, toUInt8_of_eq first, toUInt8_of_eq second,
      toUInt8_of_eq third]

/-- Letters, and padding up to four, decode to what the letters join to. -/
theorem lastGroup_padded {numbers : List Nat} {pads : Nat} {bytes : Bytes} (offset : Nat)
    (small : ∀ n ∈ numbers, n < 64) (several : 2 ≤ numbers.length)
    (four : numbers.length + pads = 4) (whole : join numbers = (bytes, false)) :
    lastGroup offset (numbers.map letterByte ++ List.replicate pads pad) = .ok bytes := by
  have letters : ∀ b ∈ numbers.map letterByte, (b != pad) = true := by
    intro b member
    obtain ⟨n, hn, rfl⟩ := List.mem_map.mp member
    exact bne_iff_ne.mpr (letter_facts n (small n hn)).2.1
  have front : (numbers.map letterByte ++ List.replicate pads pad).takeWhile (· != pad) =
      numbers.map letterByte := by
    rw [List.takeWhile_append_of_pos letters]
    cases pads <;> simp [List.replicate_succ]
  have back : (numbers.map letterByte ++ List.replicate pads pad).dropWhile (· != pad) =
      List.replicate pads pad := by
    rw [List.dropWhile_append_of_pos letters]
    cases pads <;> simp [List.replicate_succ]
  have read := values_letters small offset
  have length : (numbers.map letterByte ++ List.replicate pads pad).length = 4 := by
    rw [List.length_append, List.length_map, List.length_replicate, four]
  have enough : ¬ (numbers.map letterByte).length < 2 := by
    rw [List.length_map]
    omega
  have all : (List.replicate pads pad).all (· == pad) = true := by
    simp
  unfold lastGroup
  rw [front, back]
  simp only [read, bind, Except.bind, enough, all, length, whole]
  simp [pure, Except.pure]

theorem decodeFrom_group {numbers : List Nat} (offset : Nat) (small : ∀ n ∈ numbers, n < 64)
    (four : numbers.length = 4) {rest : Bytes} (more : rest ≠ []) {tail : Bytes}
    (decoded : decodeFrom (offset + 4) rest = .ok tail) :
    decodeFrom offset (numbers.map letterByte ++ rest) = .ok ((join numbers).1 ++ tail) := by
  obtain ⟨e, rest, rfl⟩ := List.exists_cons_of_ne_nil more
  match numbers, four with
  | [a, b, c, d], _ =>
    have read := values_letters small offset
    simp only [List.map_cons, List.map_nil] at read
    simp only [List.map_cons, List.map_nil, List.cons_append, List.nil_append, decodeFrom, read,
      decoded]
    rfl

/-! ## Whole texts -/

/-- The bytes of a text in base 64. -/
def encodeBytes (bytes : Bytes) : Bytes := (encodeChars bytes).map fun c => c.toNat.toUInt8

theorem encodeBytes_three (a b c : UInt8) (rest : Bytes) :
    encodeBytes (a :: b :: c :: rest) =
      (numbersOf [a, b, c]).map letterByte ++ encodeBytes rest := rfl

theorem encodeBytes_ne_nil {bytes : Bytes} (h : bytes ≠ []) : encodeBytes bytes ≠ [] := by
  unfold encodeBytes
  fun_cases encodeChars bytes with
  | case1 => exact absurd rfl h
  | case2 => exact List.cons_ne_nil _ _
  | case3 => exact List.cons_ne_nil _ _
  | case4 => exact List.cons_ne_nil _ _

theorem four_dvd_length_encodeBytes (bytes : Bytes) : 4 ∣ (encodeBytes bytes).length := by
  fun_induction encodeChars bytes with
  | case1 => exact Nat.dvd_zero 4
  | case2 => exact Nat.dvd_refl 4
  | case3 => exact Nat.dvd_refl 4
  | case4 a b c rest n ih =>
    rw [encodeBytes_three, List.length_append]
    exact Nat.dvd_add (Nat.dvd_refl 4) ih

theorem decodeFrom_encodeBytes (offset : Nat) (bytes : Bytes) :
    decodeFrom offset (encodeBytes bytes) = .ok bytes := by
  have group {group : Bytes} (offset pads : Nat) (one : group ≠ [])
      (four : (numbersOf group).length + pads = 4) (several : 2 ≤ (numbersOf group).length)
      (three : group.length ≤ 3) :
      lastGroup offset ((numbersOf group).map letterByte ++ List.replicate pads pad) = .ok group :=
    lastGroup_padded offset (numbersOf_lt group) several four (join_numbersOf one three)
  fun_induction encodeChars bytes generalizing offset with
  | case1 => rfl
  | case2 a => exact group offset 2 (List.cons_ne_nil a []) rfl (Nat.le_refl 2) (Nat.le_add_left 1 2)
  | case3 a b =>
    exact group offset 1 (List.cons_ne_nil a [b]) rfl (Nat.le_add_left 2 1) (Nat.le_add_left 2 1)
  | case4 a b c rest n ih =>
    rw [encodeBytes_three]
    by_cases last : rest = []
    · subst last
      exact group offset 0 (List.cons_ne_nil a [b, c]) rfl (Nat.le_add_left 2 2) (Nat.le_refl 3)
    · rw [decodeFrom_group offset (numbersOf_lt _) rfl (encodeBytes_ne_nil last) (ih (offset + 4)),
        join_numbersOf (List.cons_ne_nil a [b, c]) (Nat.le_refl 3)]
      rfl

theorem isAscii_of_mem_encodeChars (bytes : Bytes) : ∀ c ∈ encodeChars bytes, c.toNat < 128 := by
  have letters (group : Bytes) : ∀ n ∈ numbersOf group, (letter n).toNat < 128 :=
    fun n member => (letter_facts n (numbersOf_lt group n member)).2.2
  fun_induction encodeChars bytes with
  | case1 => exact List.forall_mem_nil _
  | case2 a n => simpa [numbersOf] using letters [a]
  | case3 a b n => simpa [numbersOf] using letters [a, b]
  | case4 a b c rest n ih =>
    simp only [List.forall_mem_cons]
    have four := letters [a, b, c]
    simp only [numbersOf, List.forall_mem_cons] at four
    exact ⟨four.1, four.2.1, four.2.2.1, four.2.2.2.1, ih⟩

theorem encode_encode (bytes : Bytes) : Text.encode (encode bytes) = encodeBytes bytes := by
  have single : ∀ c ∈ encodeChars bytes, String.utf8EncodeChar c = [c.toNat.toUInt8] :=
    fun c member => Text.utf8EncodeChar_of_lt (isAscii_of_mem_encodeChars bytes c member)
  rw [encode, Text.encode_ofList, encodeBytes, List.map_eq_flatMap]
  exact congrArg List.flatten (List.map_congr_left single)

/-- What is written in base 64 reads back, whatever the bytes and however many. -/
theorem decode_encode (bytes : Bytes) : decode (encode bytes) = .ok bytes := by
  have whole : ¬ (encodeBytes bytes).length % 4 = 1 := by
    have four := four_dvd_length_encodeBytes bytes
    omega
  rw [decode, encode_encode, decodeBytes, strayEnd?, if_neg whole]
  exact decodeFrom_encodeBytes 0 bytes

end SchemaCompiler.Base64
