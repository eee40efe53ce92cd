import SchemaCompiler.Proofs.Source.Lexemes

/-!
Spellings in front of text that ends them are read whole.
-/

namespace SchemaCompiler.Lexer

/-! ## Numbers -/

/-- Text whose first character is no digit, as where a run of digits ends. -/
def NoDigit (rest : List Char) : Prop := ∀ c, rest.head? = some c → c.isDigit = false

theorem noDigit_cons {c : Char} {rest : List Char} (h : c.isDigit = false) : NoDigit (c :: rest) := by
  intro d first
  cases first
  exact h

theorem digits_span {digits rest : List Char} (h : Digits digits) (stops : NoDigit rest) :
    (digits ++ rest).takeWhile Char.isDigit = digits ∧
      (digits ++ rest).dropWhile Char.isDigit = rest :=
  span_append h.2 stops

theorem digits_isEmpty {digits : List Char} (h : Digits digits) : digits.isEmpty = false := by
  rw [List.isEmpty_eq_false_iff]
  exact h.1

theorem integerPart_whole {whole rest : List Char}
    (h : whole = ['0'] ∨ Digits whole ∧ whole.head? ≠ some '0') (stops : NoDigit rest) :
    integerPart (whole ++ rest) = .ok (whole, rest) := by
  rcases h with rfl | ⟨digits, first⟩
  · have none_next : rest.head?.any Char.isDigit = false := by
      cases rest with
      | nil => rfl
      | cons c rest => exact stops c rfl
    simp [integerPart, none_next]
  · have span := digits_span digits stops
    unfold integerPart
    split
    · next tail shape =>
      cases whole with
      | nil => exact absurd rfl digits.1
      | cons c cs =>
        have same : c = '0' := (List.cons.inj shape).1
        exact absurd (congrArg some same) first
    · simp [span, digits_isEmpty digits]

theorem fractionPart_none {rest : List Char} (h : rest.head? ≠ some '.') :
    fractionPart rest = .ok ([], rest) := by
  unfold fractionPart
  split
  · exact absurd rfl h
  · rfl

theorem fractionPart_digits {digits rest : List Char} (h : Digits digits) (stops : NoDigit rest) :
    fractionPart ('.' :: digits ++ rest) = .ok ('.' :: digits, rest) := by
  simp [fractionPart, digits_span h stops, digits_isEmpty h]

theorem exponentPart_none {rest : List Char} (h : rest.head? ≠ some 'e')
    (h' : rest.head? ≠ some 'E') : exponentPart rest = .ok ([], rest) := by
  unfold exponentPart
  split
  · next e tail =>
    have letter : ¬ (e = 'e' ∨ e = 'E') := by
      rintro (rfl | rfl)
      · exact h rfl
      · exact h' rfl
    rw [if_neg letter]
  · rfl

theorem spanSign_mark {isSign : Char → Bool} {mark rest : List Char}
    (h : mark = [] ∨ ∃ c, mark = [c] ∧ isSign c = true)
    (stops : ∀ c, rest.head? = some c → isSign c = false) :
    spanSign isSign (mark ++ rest) = (mark, rest) := by
  rcases h with rfl | ⟨c, rfl, sign⟩
  · cases rest with
    | nil => rfl
    | cons c rest => simp [spanSign, stops c rfl]
  · simp [spanSign, sign]

/-- The first character of a run of digits is no sign. -/
theorem digits_no_sign {digits : List Char} (h : Digits digits) (rest : List Char) (c : Char)
    (first : (digits ++ rest).head? = some c) : c ≠ '-' ∧ c ≠ '+' := by
  obtain ⟨nonempty, all⟩ := h
  cases digits with
  | nil => exact absurd rfl nonempty
  | cons d ds =>
    have digit := all d List.mem_cons_self
    have same : d = c := Option.some.inj first
    subst same
    constructor <;> rintro rfl <;> exact absurd digit (by decide)

theorem exponentPart_digits {e : Char} {mark digits rest : List Char} (letter : e = 'e' ∨ e = 'E')
    (sign : mark = [] ∨ mark = ['+'] ∨ mark = ['-']) (h : Digits digits) (stops : NoDigit rest) :
    exponentPart (e :: (mark ++ digits) ++ rest) = .ok (e :: (mark ++ digits), rest) := by
  have signed : spanSign (fun c => c == '+' || c == '-') (mark ++ (digits ++ rest)) =
      (mark, digits ++ rest) := by
    apply spanSign_mark
    · rcases sign with rfl | rfl | rfl
      · exact .inl rfl
      · exact .inr ⟨_, rfl, rfl⟩
      · exact .inr ⟨_, rfl, rfl⟩
    · intro c first
      have h := digits_no_sign h rest c first
      simp [h]
  simp [exponentPart, letter, signed, digits_span h stops, digits_isEmpty h]

/-- A number in front of text that ends it is read whole. -/
theorem number_spelled {sign whole fraction exponent rest : List Char}
    (h : NumberSpelling sign whole fraction exponent) (ends : EndsNumber rest) :
    number (sign ++ whole ++ fraction ++ exponent ++ rest) =
      .ok ⟨(if fraction.isEmpty && exponent.isEmpty then TokenKind.int else TokenKind.float)
        (String.ofList (sign ++ whole ++ fraction ++ exponent)),
        sign ++ whole ++ fraction ++ exponent, rest⟩ := by
  have rest_no_digit : NoDigit rest := fun c first => (ends c first).1
  have exponent_read : exponentPart (exponent ++ rest) = .ok (exponent, rest) := by
    rcases h.exponent with rfl | ⟨e, mark, digits, rfl, letter, sign, spelled⟩
    · apply exponentPart_none <;> intro first <;>
        exact absurd (ends _ first).2.2 (by decide)
    · exact exponentPart_digits letter sign spelled rest_no_digit
  have exponent_no_digit : NoDigit (exponent ++ rest) := by
    rcases h.exponent with rfl | ⟨e, mark, digits, rfl, letter, sign, spelled⟩
    · exact rest_no_digit
    · apply noDigit_cons
      rcases letter with rfl | rfl <;> rfl
  have fraction_read : fractionPart (fraction ++ (exponent ++ rest)) =
      .ok (fraction, exponent ++ rest) := by
    rcases h.fraction with rfl | ⟨digits, rfl, spelled⟩
    · apply fractionPart_none
      rcases h.exponent with rfl | ⟨e, mark, digits, rfl, letter, sign, spelled⟩
      · intro first
        exact (ends '.' first).2.1 rfl
      · rcases letter with rfl | rfl <;> simp
    · exact fractionPart_digits spelled exponent_no_digit
  have fraction_no_digit : NoDigit (fraction ++ (exponent ++ rest)) := by
    rcases h.fraction with rfl | ⟨digits, rfl, spelled⟩
    · exact exponent_no_digit
    · exact noDigit_cons rfl
  have whole_read := integerPart_whole h.whole fraction_no_digit
  have sign_read : spanSign (· == '-') (sign ++ (whole ++ (fraction ++ (exponent ++ rest)))) =
      (sign, whole ++ (fraction ++ (exponent ++ rest))) := by
    apply spanSign_mark
    · rcases h.sign with rfl | rfl
      · exact .inl rfl
      · exact .inr ⟨_, rfl, rfl⟩
    · intro c first
      rw [beq_eq_false_iff_ne]
      rcases h.whole with rfl | ⟨digits, -⟩
      · cases first
        decide
      · exact (digits_no_sign digits _ c first).1
  have end_read : checkNumberEnd rest = .ok () := by
    unfold checkNumberEnd
    split
    · next c tail =>
      have h : ¬ (c = '.' ∨ isNameStart c = true) := by
        rintro (dot | start)
        · exact (ends c rfl).2.1 dot
        · exact Bool.false_ne_true ((ends c rfl).2.2.symm.trans start)
      rw [if_neg h]
    · rfl
  have shape : sign ++ whole ++ fraction ++ exponent ++ rest =
      sign ++ (whole ++ (fraction ++ (exponent ++ rest))) := by
    simp only [List.append_assoc]
  rw [shape]
  simp only [number, sign_read, whole_read, fraction_read, exponent_read, end_read, bind,
    Except.bind, pure, Except.pure]

/-! ## Quoted strings -/

/-- A string as it is written between its quotes. -/
def escaped (value : List Char) : List Char := value.flatMap fun c => (Value.escapedChar c).toList

/-- The escape or the character itself stands for the character. -/
theorem quotedBody_escapedChar (c : Char) (rest : List Char) :
    quotedBody ((Value.escapedChar c).toList ++ rest) =
      Quoted.push c (Value.escapedChar c).toList (quotedBody rest) := by
  unfold Value.escapedChar
  split
  · next h => subst h; rfl
  split
  · next h => subst h; rfl
  split
  · next h => subst h; rfl
  split
  · next h => subst h; rfl
  split
  · next h => subst h; rfl
  next quote slash feed carriage tab =>
  have plain : isLineEnd c = false := by
    simp [isLineEnd, feed, carriage]
  have whole : c.toString.toList = [c] := by
    simp [Char.toString]
  rw [whole, List.singleton_append]
  simp [quotedBody, slash, plain]

theorem quotedBody_escaped (value rest : List Char) :
    quotedBody (escaped value ++ '"' :: rest) = .ok ⟨value, escaped value ++ ['"'], rest⟩ := by
  induction value with
  | nil => rfl
  | cons c value ih =>
    have front : escaped (c :: value) = (Value.escapedChar c).toList ++ escaped value :=
      List.flatMap_cons
    rw [front, List.append_assoc, quotedBody_escapedChar, ih, Quoted.push]
    simp only [List.append_assoc]

/-- What would begin a block string. -/
def threeQuotes : List Char := ['"', '"', '"']

theorem string_of_quotedBody {cs : List Char} {q : Quoted} (read : quotedBody cs = .ok q)
    (single : ¬ threeQuotes <+: '"' :: cs) :
    string ('"' :: cs) = .ok ⟨.string (String.ofList q.value), '"' :: q.text, q.rest⟩ := by
  unfold string
  split
  · next tail shape => exact absurd ⟨tail, shape.symm⟩ single
  · rw [List.tail_cons, read]

end SchemaCompiler.Lexer
