import SchemaCompiler.Proofs.Json.Nesting

/-!
Strings and numbers read back: the scanners of the reader undo what the printer writes, and stop
exactly behind it.
-/

namespace SchemaCompiler.Json.Reader

open Text (encode)

/-! ## Escapes -/

/-- A byte that stands for itself between quotes. -/
def IsPlain (b : UInt8) : Prop := 32 ≤ b ∧ b ≠ 34 ∧ b ≠ 92

theorem stringBytes_plain {piece : Bytes} (plain : ∀ b ∈ piece, IsPlain b) (fuel : Nat)
    (rest : Bytes) :
    stringBytes (piece.length + fuel) (piece ++ rest) =
      (stringBytes fuel rest).map fun (raw, left) => (piece ++ raw, left) := by
  induction piece with
  | nil =>
    rw [List.length_nil, Nat.zero_add, List.nil_append]
    cases stringBytes fuel rest <;> rfl
  | cons b piece ih =>
    obtain ⟨hlow, hquote, hslash⟩ := plain b List.mem_cons_self
    have hlow' : ¬b < 32 := UInt8.not_lt.2 hlow
    have tail := ih fun x hx => plain x (List.mem_cons_of_mem _ hx)
    rw [List.length_cons, Nat.succ_add, List.cons_append, stringBytes, if_neg hquote,
      if_neg hslash, if_neg hlow', tail]
    cases stringBytes fuel rest <;> rfl

/-- Quotes, backslashes and controls apart, every byte of a character is plain. -/
theorem isPlain_of_mem {c : Char} (hquote : c ≠ '"') (hslash : c ≠ '\\') (hcontrol : ¬c.toNat < 32)
    {b : UInt8} (hb : b ∈ String.utf8EncodeChar c) : IsPlain b := by
  by_cases hascii : c.toNat < 128
  · rw [Text.utf8EncodeChar_of_lt hascii, List.mem_singleton] at hb
    have value : b.toNat = c.toNat := by
      rw [hb, Nat.toUInt8, UInt8.toNat_ofNat']
      omega
    refine ⟨?_, ?_, ?_⟩
    · rw [UInt8.le_iff_toNat_le, value]
      exact Nat.not_lt.1 hcontrol
    · intro h
      exact hquote (Char.toNat_inj.1 (value.symm.trans (congrArg UInt8.toNat h)))
    · intro h
      exact hslash (Char.toNat_inj.1 (value.symm.trans (congrArg UInt8.toNat h)))
  · have high := Text.le_of_mem_utf8EncodeChar (Nat.not_lt.1 hascii) hb
    refine ⟨?_, ?_, ?_⟩
    · rw [UInt8.le_iff_toNat_le]
      exact Nat.le_trans (by decide) high
    · rintro rfl
      exact absurd high (by decide)
    · rintro rfl
      exact absurd high (by decide)

/-- The hexadecimal digit of a number below sixteen. -/
def hexByte (n : Nat) : UInt8 := (if n < 10 then 48 + n else 87 + n).toUInt8

theorem hexValue?_hexByte : ∀ n < 16, hexValue? (hexByte n) = some n := by decide

/-- What stands behind the backslash of an escape, and the character meant by it. -/
inductive Escapes : Bytes → Char → Prop where
  | quote : Escapes [34] '"'
  | backslash : Escapes [92] '\\'
  | backspace : Escapes [98] '\x08'
  | formFeed : Escapes [102] '\x0c'
  | lineFeed : Escapes [110] '\n'
  | carriageReturn : Escapes [114] '\r'
  | tab : Escapes [116] '\t'
  | control (c : Char) (h : c.toNat < 32) :
      Escapes [117, 48, 48, hexByte (c.toNat / 16), hexByte (c.toNat % 16)] c

theorem controlEscape_bytes : ∀ n < 32,
    encode ("\\u00" ++ (if n < 0x10 then "0" else "") ++ Text.hexDigits n) =
      [92, 117, 48, 48, hexByte (n / 16), hexByte (n % 16)] := by decide

/-- A character is written as an escape or in plain bytes of its own. -/
theorem escapedChar_cases (c : Char) :
    (∃ letters, encode (escapedChar c) = 92 :: letters ∧ Escapes letters c) ∨
      (encode (escapedChar c) = String.utf8EncodeChar c ∧
        ∀ b ∈ String.utf8EncodeChar c, IsPlain b) := by
  have escaped {text : String} (letters : Bytes) (h : encode text = 92 :: letters)
      (means : Escapes letters c) : ∃ letters, encode text = 92 :: letters ∧ Escapes letters c :=
    ⟨letters, h, means⟩
  unfold escapedChar
  split
  · next h => subst h; exact .inl (escaped [34] (by decide) .quote)
  split
  · next h => subst h; exact .inl (escaped [92] (by decide) .backslash)
  split
  · next h => subst h; exact .inl (escaped [98] (by decide) .backspace)
  split
  · next h => subst h; exact .inl (escaped [102] (by decide) .formFeed)
  split
  · next h => subst h; exact .inl (escaped [110] (by decide) .lineFeed)
  split
  · next h => subst h; exact .inl (escaped [114] (by decide) .carriageReturn)
  split
  · next h => subst h; exact .inl (escaped [116] (by decide) .tab)
  split
  · next h => exact .inl (escaped _ (controlEscape_bytes c.toNat h) (.control c h))
  · next hquote hslash _ _ _ _ _ hcontrol =>
    exact .inr ⟨Text.encode_singleton c, fun b hb => isPlain_of_mem hquote hslash hcontrol hb⟩

theorem escape_of_escapes {letters : Bytes} {c : Char} (h : Escapes letters c) (rest : Bytes) :
    escape (letters ++ rest) = .ok (String.utf8EncodeChar c, rest) := by
  cases h with
  | control c h =>
    have high := hexValue?_hexByte (c.toNat / 16) (by omega)
    have low := hexValue?_hexByte (c.toNat % 16) (by omega)
    have zero : hexValue? 48 = some 0 := by decide
    have digits : hex4 (48 :: 48 :: hexByte (c.toNat / 16) :: hexByte (c.toNat % 16) :: rest) =
        .ok (c.toNat, rest) := by
      simp only [hex4, zero, high, low]
      congr 2
      omega
    have unicode : unicodeEscape
        (48 :: 48 :: hexByte (c.toNat / 16) :: hexByte (c.toNat % 16) :: rest) = .ok (c, rest) := by
      have notLow : ¬(0xDC00 ≤ c.toNat ∧ c.toNat ≤ 0xDFFF) := by omega
      have notHigh : c.toNat < 0xD800 ∨ 0xDBFF < c.toNat := by omega
      unfold unicodeEscape
      rw [digits]
      simp only [bind, Except.bind, if_neg notLow, if_pos notHigh, Char.ofNat_toNat]
      rfl
    simp only [List.cons_append, List.nil_append, escape, if_true, unicode]
    simp only [bind, Except.bind, Text.encode_singleton]
    rfl
  | _ => rfl

/-! ## Strings -/

/-- Reading one written character takes some number of steps, never more than it has bytes. -/
theorem stringBytes_char (c : Char) :
    ∃ steps ≤ (encode (escapedChar c)).length, ∀ fuel rest,
      stringBytes (steps + fuel) (encode (escapedChar c) ++ rest) =
        (stringBytes fuel rest).map fun (raw, left) => (String.utf8EncodeChar c ++ raw, left) := by
  rcases escapedChar_cases c with ⟨letters, hbytes, means⟩ | ⟨hbytes, plain⟩
  · refine ⟨1, by rw [hbytes, List.length_cons]; omega, fun fuel rest => ?_⟩
    have slash : ¬(92 : UInt8) = 34 := by decide
    rw [hbytes, List.cons_append, Nat.add_comm 1 fuel, stringBytes, if_neg slash, if_pos rfl,
      escape_of_escapes means]
    simp only [bind, Except.bind]
    cases stringBytes fuel rest <;> rfl
  · refine ⟨(String.utf8EncodeChar c).length, Nat.le_of_eq (by rw [hbytes]), fun fuel rest => ?_⟩
    rw [hbytes, stringBytes_plain plain]

theorem stringBytes_chars (cs : List Char) :
    ∃ steps ≤ (cs.flatMap fun c => encode (escapedChar c)).length, ∀ fuel rest,
      stringBytes (steps + fuel) (cs.flatMap (fun c => encode (escapedChar c)) ++ rest) =
        (stringBytes fuel rest).map fun (raw, left) =>
          (cs.flatMap String.utf8EncodeChar ++ raw, left) := by
  induction cs with
  | nil =>
    refine ⟨0, Nat.le_refl 0, fun fuel rest => ?_⟩
    rw [Nat.zero_add]
    change stringBytes fuel rest = _
    cases stringBytes fuel rest <;> rfl
  | cons c cs ih =>
    obtain ⟨first, hfirst, readFirst⟩ := stringBytes_char c
    obtain ⟨more, hmore, readMore⟩ := ih
    refine ⟨first + more, by rw [List.flatMap_cons, List.length_append]; omega, ?_⟩
    intro fuel rest
    rw [List.flatMap_cons, List.flatMap_cons, List.append_assoc, Nat.add_assoc, readFirst, readMore]
    cases stringBytes fuel rest with
    | error stop => rfl
    | ok reading => simp only [Except.map, List.append_assoc]

/-- A quoted text behind its opening quote. -/
theorem string_quoted (s : String) (rest : Bytes) :
    string (s.toList.flatMap (fun c => encode (escapedChar c)) ++ 34 :: rest) = .ok (s, rest) := by
  obtain ⟨steps, hsteps, reads⟩ := stringBytes_chars s.toList
  have enough : ∃ fuel, (s.toList.flatMap (fun c => encode (escapedChar c)) ++ 34 :: rest).length =
      steps + (fuel + 1) := by
    refine ⟨(s.toList.flatMap (fun c => encode (escapedChar c))).length + rest.length - steps, ?_⟩
    rw [List.length_append, List.length_cons]
    omega
  obtain ⟨fuel, hfuel⟩ := enough
  have closing : stringBytes (fuel + 1) (34 :: rest) = .ok ([], rest) := by
    rw [stringBytes, if_pos rfl]
  unfold string
  rw [hfuel, reads, closing]
  simp only [Except.map, bind, Except.bind, List.append_nil, ← Text.encode_eq_flatMap,
    Text.decode?_encode]
  rfl

/-! ## Numbers -/

/-- Bytes that can follow a value: none, a comma or a closing bracket. -/
def Follows : Bytes → Prop
  | [] => True
  | b :: _ => b = 44 ∨ b = 93 ∨ b = 125

theorem Follows.comma (rest : Bytes) : Follows (44 :: rest) := .inl rfl

theorem Follows.bracket (rest : Bytes) : Follows (93 :: rest) := .inr (.inl rfl)

theorem Follows.brace (rest : Bytes) : Follows (125 :: rest) := .inr (.inr rfl)

def digitByte (c : Char) : UInt8 := c.toNat.toUInt8

theorem toNat_digitByte {c : Char} (h : c.isDigit) : (digitByte c).toNat = c.toNat := by
  have bounds := Text.isDigit_bounds h
  rw [digitByte, Nat.toUInt8, UInt8.toNat_ofNat']
  omega

theorem isDigit_digitByte {c : Char} (h : c.isDigit) : isDigit (digitByte c) = true := by
  have bounds := Text.isDigit_bounds h
  simp only [isDigit, Bool.and_eq_true, decide_eq_true_eq, UInt8.le_iff_toNat_le,
    toNat_digitByte h]
  exact bounds

theorem digitValue_digitByte {c : Char} (h : c.isDigit) :
    digitValue (digitByte c) = c.toNat - '0'.toNat := by
  rw [digitValue, toNat_digitByte h]
  rfl

theorem isDigit_of_follows {b : UInt8} {rest : Bytes} (h : Follows (b :: rest)) :
    isDigit b = false := by
  obtain rfl | rfl | rfl := h <;> decide

theorem flatMap_digits {ds : List Char} (digits : ∀ c ∈ ds, c.isDigit) :
    ds.flatMap String.utf8EncodeChar = ds.map digitByte := by
  induction ds with
  | nil => rfl
  | cons c ds ih =>
    have bounds := Text.isDigit_bounds (digits c List.mem_cons_self)
    rw [List.flatMap_cons, List.map_cons, ih fun x hx => digits x (List.mem_cons_of_mem _ hx),
      Text.utf8EncodeChar_of_lt (by omega)]
    rfl

theorem encode_repr (n : Nat) : encode (toString n) = (Nat.toDigits 10 n).map digitByte := by
  rw [Nat.toString_eq_ofList_toDigits, Text.encode_ofList]
  exact flatMap_digits fun c hc => Nat.isDigit_of_mem_toDigits (by decide) (by decide) hc

theorem le_ofDigitChars (ds : List Char) (start : Nat) : start ≤ Nat.ofDigitChars 10 ds start := by
  rw [Nat.ofDigitChars_eq_ofDigitChars_zero]
  have h : start ≤ 10 ^ ds.length * start := Nat.le_mul_of_pos_left _ (Nat.pow_pos (by decide))
  omega

theorem integerDigits_digits (ds : List Char) (digits : ∀ c ∈ ds, c.isDigit) (start : Nat)
    (fits : Nat.ofDigitChars 10 ds start ≤ maxSignificand) {rest : Bytes} (follows : Follows rest) :
    integerDigits start (ds.map digitByte ++ rest) =
      (Nat.ofDigitChars 10 ds start, false, rest) := by
  induction ds generalizing start with
  | nil =>
    cases rest with
    | nil => rfl
    | cons b rest =>
      rw [List.map_nil, List.nil_append, integerDigits, if_neg]
      · rfl
      · rw [isDigit_of_follows follows]
        decide
  | cons c ds ih =>
    have hc := digits c List.mem_cons_self
    rw [Nat.ofDigitChars_cons, Nat.mul_comm 10 start] at fits
    have small : ¬start * 10 + (c.toNat - '0'.toNat) > maxSignificand :=
      Nat.not_lt.2 (Nat.le_trans (le_ofDigitChars ds _) fits)
    rw [List.map_cons, List.cons_append, integerDigits, if_pos (isDigit_digitByte hc),
      digitValue_digitByte hc, if_neg small, ih (fun x hx => digits x (List.mem_cons_of_mem _ hx)) _ fits,
      Nat.ofDigitChars_cons, Nat.mul_comm 10 start]

theorem toDigits_eq_cons (n : Nat) :
    ∃ c ds, Nat.toDigits 10 n = c :: ds ∧ (c = '0' → n = 0 ∧ ds = []) := by
  induction n using Nat.strongRecOn with
  | ind n ih =>
    by_cases small : n < 10
    · exact ⟨n.digitChar, [], Nat.toDigits_of_lt_base small, fun h =>
        ⟨Nat.digitChar_eq_zero.1 h, rfl⟩⟩
    · obtain ⟨c, ds, hdigits, zero⟩ := ih (n / 10) (by omega)
      refine ⟨c, ds ++ [(n % 10).digitChar], ?_, fun h => ?_⟩
      · rw [Nat.toDigits_of_base_le (by decide) (Nat.not_lt.1 small), hdigits, List.cons_append]
      · have := (zero h).1
        omega

theorem afterInteger_of_follows (n : Nat) {rest : Bytes} (follows : Follows rest) :
    afterInteger false n 0 false rest = .ok (.integer n, rest) := by
  cases rest with
  | nil => rfl
  | cons b rest => obtain rfl | rfl | rfl := follows <;> rfl

theorem unsigned_repr {n : Nat} (fits : n ≤ maxSignificand) {rest : Bytes}
    (follows : Follows rest) :
    ∃ b digits, encode (toString n) = b :: digits ∧ isDigit b = true ∧
      unsigned false (b :: digits ++ rest) = .ok (.integer n, rest) := by
  obtain ⟨c, ds, hdigits, zero⟩ := toDigits_eq_cons n
  have allDigits : ∀ x ∈ c :: ds, x.isDigit := fun x hx =>
    Nat.isDigit_of_mem_toDigits (by decide) (by decide) (hdigits ▸ hx)
  have hc := allDigits c List.mem_cons_self
  refine ⟨digitByte c, ds.map digitByte, by rw [encode_repr, hdigits, List.map_cons],
    isDigit_digitByte hc, ?_⟩
  rw [List.cons_append, unsigned]
  by_cases hzero : digitByte c = 48
  · have hc0 : c = '0' :=
      Char.toNat_inj.1 ((toNat_digitByte hc).symm.trans (congrArg UInt8.toNat hzero))
    obtain ⟨rfl, rfl⟩ := zero hc0
    have noDigit : ¬rest.head?.any isDigit = true := by
      cases rest with
      | nil => decide
      | cons b rest =>
        rw [List.head?_cons, Option.any_some, isDigit_of_follows follows]
        decide
    rw [if_pos hzero, List.map_nil, List.nil_append, if_neg noDigit,
      afterInteger_of_follows 0 follows]
  · have value : Nat.ofDigitChars 10 ds (c.toNat - '0'.toNat) = n := by
      have h := Nat.ofDigitChars_ten_toDigits (n := n)
      rwa [hdigits, Nat.ofDigitChars_cons, Nat.mul_zero, Nat.zero_add] at h
    have read := integerDigits_digits ds (fun x hx => allDigits x (List.mem_cons_of_mem _ hx))
      (c.toNat - '0'.toNat) (by rwa [value]) follows
    rw [if_neg hzero, if_pos (isDigit_digitByte hc), digitValue_digitByte hc, read, value]
    exact afterInteger_of_follows n follows

end SchemaCompiler.Json.Reader
