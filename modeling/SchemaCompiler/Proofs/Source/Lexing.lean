import SchemaCompiler.Proofs.Source.Scanning

/-!
What the tokens of a text are, whatever its position.

`Lexes` is the tokens' view of a text: ignored text and lexemes in turn, without places. The tokens
of a source have just these kinds, and the lexemes of every kind scan back from their spelling.
-/

namespace SchemaCompiler.Lexer

theorem tokensFrom_finish {cs : List Char} (ignored : (spanIgnored false cs).2 = [])
    (p : Position) : tokensFrom p cs = .ok [⟨.eof, p.advance (spanIgnored false cs).1⟩] := by
  rw [tokensFrom]
  split
  · rfl
  · next c rest shape => cases ignored.symm.trans shape

theorem tokensFrom_lexeme {cs : List Char} {c : Char} {rest : List Char} {s : Scan}
    (ignored : (spanIgnored false cs).2 = c :: rest) (scanned : scan c rest = .ok s)
    (p : Position) :
    tokensFrom p cs =
      (tokensFrom ((p.advance (spanIgnored false cs).1).advance s.text) s.rest).map
        (⟨s.kind, p.advance (spanIgnored false cs).1⟩ :: ·) := by
  rw [tokensFrom]
  split
  · next shape => cases ignored.symm.trans shape
  · next c' rest' shape =>
    obtain ⟨rfl, rfl⟩ := List.cons.inj (ignored.symm.trans shape)
    split
    · next stop failed => cases scanned.symm.trans failed
    · next s' again =>
      cases scanned.symm.trans again
      rfl

/-- The kinds of the tokens of a text; the last one is the end of the source. -/
inductive Lexes : List Char → List TokenKind → Prop where
  | finish {cs : List Char} (ignored : (spanIgnored false cs).2 = []) : Lexes cs [.eof]
  | lexeme {cs : List Char} {c : Char} {rest : List Char} {s : Scan} {kinds : List TokenKind}
      (ignored : (spanIgnored false cs).2 = c :: rest) (scanned : scan c rest = .ok s)
      (behind : Lexes s.rest kinds) : Lexes cs (s.kind :: kinds)

/-- The tokens of a text have its kinds, wherever the text stands. -/
theorem Lexes.exists_tokens {cs : List Char} {kinds : List TokenKind} (h : Lexes cs kinds)
    (p : Position) : ∃ tokens, tokensFrom p cs = .ok tokens ∧ tokens.map (·.kind) = kinds := by
  induction h generalizing p with
  | finish ignored => exact ⟨_, tokensFrom_finish ignored p, rfl⟩
  | @lexeme cs c rest s kinds ignored scanned behind ih =>
    obtain ⟨tokens, read, same⟩ := ih ((p.advance (spanIgnored false cs).1).advance s.text)
    refine ⟨⟨s.kind, p.advance (spanIgnored false cs).1⟩ :: tokens, ?_, ?_⟩
    · rw [tokensFrom_lexeme ignored scanned, read]
      rfl
    · rw [List.map_cons, same]

theorem lexes_of_tokens {p : Position} {cs : List Char} {tokens : List Token}
    (h : tokensFrom p cs = .ok tokens) : Lexes cs (tokens.map (·.kind)) := by
  fun_induction tokensFrom p cs generalizing tokens with
  | case1 p cs here =>
    cases h
    exact .finish ‹_›
  | case2 => cases h
  | case3 =>
    rename_i p cs here c rest shape s scanned ih
    cases behind : tokensFrom (here.advance s.text) s.rest with
    | error fault =>
      rw [behind] at h
      cases h
    | ok more =>
      rw [behind] at h
      cases h
      exact .lexeme shape scanned (ih behind)

/-! ## Ignored text -/

theorem spanIgnored_cons {c : Char} (h : isIgnored c = true) (rest : List Char) :
    (spanIgnored false (c :: rest)).2 = (spanIgnored false rest).2 := by
  have plain : (c == '#') = false := by
    rw [beq_eq_false_iff_ne]
    rintro rfl
    exact absurd h (by decide)
  simp [spanIgnored, h, plain]

/-- An ignored character in front changes nothing. -/
theorem Lexes.cons_ignored {c : Char} (ignored : isIgnored c = true) {rest : List Char}
    {kinds : List TokenKind} (h : Lexes rest kinds) : Lexes (c :: rest) kinds := by
  have same := spanIgnored_cons ignored rest
  cases h with
  | finish none => exact .finish (same.trans none)
  | lexeme first scanned behind => exact .lexeme (same.trans first) scanned behind

/-! ## Lexemes from their spelling -/

theorem lexes_of_scan {c : Char} {tail : List Char} {s : Scan} (kept : isIgnored c = false)
    (hash : c ≠ '#') (scanned : scan c tail = .ok s) {kinds : List TokenKind}
    (behind : Lexes s.rest kinds) : Lexes (c :: tail) (s.kind :: kinds) := by
  refine .lexeme ?_ scanned behind
  simp [spanIgnored, kept, hash]

/-- A mark is a lexeme by itself, whatever follows. -/
theorem lexes_mark (mark : Punctuator) {rest : List Char} {kinds : List TokenKind}
    (behind : Lexes rest kinds) : Lexes (mark.char :: rest) (.punct mark :: kinds) := by
  have scanned : scan mark.char rest = .ok ⟨.punct mark, [mark.char], rest⟩ := by
    unfold scan
    rw [ofChar?_char]
  have kept : isIgnored mark.char = false ∧ mark.char ≠ '#' := by
    cases mark <;> decide
  exact lexes_of_scan kept.1 kept.2 scanned behind

/-- In front of the rest, the text scans as one lexeme of the kind. -/
def ScansBefore (rest text : List Char) (kind : TokenKind) : Prop :=
  ∃ c cs, text = c :: cs ∧ isIgnored c = false ∧ c ≠ '#' ∧
    scan c (cs ++ rest) = .ok ⟨kind, text, rest⟩

/-- In front of text that ends it, the text scans as one lexeme of the kind. -/
def ScansAs (text : List Char) (kind : TokenKind) : Prop :=
  ∀ rest, Ends rest → ScansBefore rest text kind

theorem ScansAs.lexes {text : List Char} {kind : TokenKind} (h : ScansAs text kind)
    {rest : List Char} (ends : Ends rest) {kinds : List TokenKind} (behind : Lexes rest kinds) :
    Lexes (text ++ rest) (kind :: kinds) := by
  obtain ⟨c, cs, rfl, kept, hash, scanned⟩ := h rest ends
  exact lexes_of_scan kept hash scanned behind

theorem isIgnored_of_isNameContinue {c : Char} (h : isNameContinue c = true) :
    isIgnored c = false ∧ c ≠ '#' := by
  constructor
  · simp only [isIgnored, Bool.or_eq_false_iff, beq_eq_false_iff_ne]
    refine ⟨⟨⟨⟨⟨?_, ?_⟩, ?_⟩, ?_⟩, ?_⟩, ?_⟩ <;> rintro rfl <;> exact absurd h (by decide)
  · rintro rfl
    exact absurd h (by decide)

theorem scansBefore_name {text rest : List Char} (h : NameSpelling text) (ends : EndsName rest) :
    ScansBefore rest text (.name (String.ofList text)) := by
  cases text with
  | nil => exact h.elim
  | cons c cs =>
  obtain ⟨start, continues⟩ := h
  have inside : isNameContinue c = true := (isNameContinue_iff c).mpr (.inl start)
  obtain ⟨kept, mark⟩ := isIgnored_of_isNameContinue inside
  refine ⟨c, cs, rfl, kept, mark, ?_⟩
  have dot : c ≠ '.' := by
    rintro rfl
    exact absurd start (by decide)
  have quote : c ≠ '"' := by
    rintro rfl
    exact absurd start (by decide)
  have minus : ¬ (c = '-' ∨ c.isDigit = true) := by
    rintro (rfl | digit)
    · exact absurd start (by decide)
    · exact Bool.false_ne_true ((not_isDigit_of_isNameStart start).symm.trans digit)
  have span := span_append continues ends
  unfold scan
  rw [ofChar?_of_isNameContinue inside]
  simp only [dot, quote, minus, start, span, if_false, if_true]

theorem scansAs_name {text : List Char} (h : NameSpelling text) :
    ScansAs text (.name (String.ofList text)) :=
  fun _ ends => scansBefore_name h ends.name

theorem scansBefore_number {sign whole fraction exponent rest : List Char}
    (h : NumberSpelling sign whole fraction exponent) (ends : EndsNumber rest) :
    ScansBefore rest (sign ++ whole ++ fraction ++ exponent)
      ((if fraction.isEmpty && exponent.isEmpty then TokenKind.int else TokenKind.float)
        (String.ofList (sign ++ whole ++ fraction ++ exponent))) := by
  have read := number_spelled h ends
  have first : ∃ c cs, sign ++ whole ++ fraction ++ exponent = c :: cs ∧
      (c = '-' ∨ c.isDigit = true) := by
    rcases h.sign with rfl | rfl
    · rcases h.whole with rfl | ⟨⟨nonempty, digits⟩, -⟩
      · exact ⟨'0', fraction ++ exponent, by simp, .inr rfl⟩
      · cases whole with
        | nil => exact absurd rfl nonempty
        | cons d ds =>
          exact ⟨d, ds ++ fraction ++ exponent, by simp, .inr (digits d List.mem_cons_self)⟩
    · exact ⟨'-', whole ++ fraction ++ exponent, by simp, .inl rfl⟩
  obtain ⟨c, cs, shape, begins⟩ := first
  refine ⟨c, cs, shape, ?_⟩
  have other : isIgnored c = false ∧ c ≠ '#' ∧ Punctuator.ofChar? c = none ∧ c ≠ '.' ∧ c ≠ '"' := by
    rcases begins with rfl | digit
    · decide
    · have inside : isNameContinue c = true := (isNameContinue_iff c).mpr (.inr digit)
      obtain ⟨kept, mark⟩ := isIgnored_of_isNameContinue inside
      refine ⟨kept, mark, ofChar?_of_isNameContinue inside, ?_, ?_⟩ <;> rintro rfl <;>
        exact absurd digit (by decide)
  obtain ⟨kept, hash, mark, dot, quote⟩ := other
  refine ⟨kept, hash, ?_⟩
  rw [shape, List.cons_append] at read
  unfold scan
  rw [mark]
  simp only [dot, quote, begins, if_false, if_true, read, shape]
  rfl

theorem scansAs_number {sign whole fraction exponent : List Char}
    (h : NumberSpelling sign whole fraction exponent) :
    ScansAs (sign ++ whole ++ fraction ++ exponent)
      ((if fraction.isEmpty && exponent.isEmpty then TokenKind.int else TokenKind.float)
        (String.ofList (sign ++ whole ++ fraction ++ exponent))) :=
  fun _ ends => scansBefore_number h ends.number

/-- What an escaped string begins with is no quote. -/
theorem escaped_head (c : Char) (value : List Char) :
    ∃ first tail, escaped (c :: value) = first :: tail ∧ first ≠ '"' := by
  have front : escaped (c :: value) = (Value.escapedChar c).toList ++ escaped value :=
    List.flatMap_cons
  rw [front]
  unfold Value.escapedChar
  split
  · exact ⟨'\\', _, rfl, by decide⟩
  split
  · exact ⟨'\\', _, rfl, by decide⟩
  split
  · exact ⟨'\\', _, rfl, by decide⟩
  split
  · exact ⟨'\\', _, rfl, by decide⟩
  split
  · exact ⟨'\\', _, rfl, by decide⟩
  next quote _ _ _ _ =>
  have whole : c.toString.toList = [c] := by
    simp [Char.toString]
  rw [whole]
  exact ⟨c, _, rfl, quote⟩

theorem scansBefore_string {text rest : List Char} {kind : TokenKind}
    (read : string ('"' :: (text ++ rest)) = .ok ⟨kind, '"' :: text, rest⟩) :
    ScansBefore rest ('"' :: text) kind := by
  have mark : Punctuator.ofChar? '"' = none := by decide
  refine ⟨'"', text, rfl, by decide, by decide, ?_⟩
  unfold scan
  rw [mark]
  exact read

theorem scansAs_quoted (value : List Char) :
    ScansAs ('"' :: (escaped value ++ ['"'])) (.string (String.ofList value)) := by
  intro rest ends
  have single : ¬ threeQuotes <+: '"' :: (escaped value ++ '"' :: rest) := by
    rintro ⟨tail, block⟩
    cases value with
    | nil =>
      cases rest with
      | nil => cases (List.cons.inj (List.cons.inj block).2).2
      | cons d rest =>
        have same := (List.cons.inj (List.cons.inj (List.cons.inj block).2).2).1
        exact (ends d rfl).2.2 same.symm
    | cons c value =>
      obtain ⟨first, more, shape, other⟩ := escaped_head c value
      rw [shape] at block
      exact other (List.cons.inj (List.cons.inj block).2).1.symm
  apply scansBefore_string
  rw [List.append_assoc]
  exact string_of_quotedBody (quotedBody_escaped value rest) single

/-! ## Spellings from lexemes -/

theorem digits_takeWhile {cs : List Char} (h : ¬ (cs.takeWhile Char.isDigit).isEmpty = true) :
    Digits (cs.takeWhile Char.isDigit) := by
  refine ⟨fun none => h (by rw [none]; rfl), fun c member => ?_⟩
  have all := List.all_takeWhile (p := Char.isDigit) (l := cs)
  exact List.all_eq_true.mp all c member

theorem spanSign_fst (isSign : Char → Bool) (cs : List Char) :
    (spanSign isSign cs).1 = [] ∨ ∃ c, (spanSign isSign cs).1 = [c] ∧ isSign c = true := by
  cases cs with
  | nil => exact .inl rfl
  | cons c rest =>
    by_cases h : isSign c = true
    · exact .inr ⟨c, by simp [spanSign, h], h⟩
    · exact .inl (by simp [spanSign, h])

theorem integerPart_spelled {cs whole rest : List Char} (h : integerPart cs = .ok (whole, rest)) :
    whole = ['0'] ∨ Digits whole ∧ whole.head? ≠ some '0' := by
  unfold integerPart at h
  split at h
  · split at h
    · cases h
    · cases h
      exact .inl rfl
  · next other =>
    split at h
    · cases h
    · next nonempty =>
      cases h
      refine .inr ⟨digits_takeWhile nonempty, fun zero => ?_⟩
      cases cs with
      | nil => cases zero
      | cons c cs =>
        by_cases digit : c.isDigit = true
        · rw [List.takeWhile_cons_of_pos digit] at zero
          cases zero
          exact other cs rfl
        · rw [List.takeWhile_cons_of_neg digit] at zero
          cases zero

theorem fractionPart_spelled {cs fraction rest : List Char}
    (h : fractionPart cs = .ok (fraction, rest)) :
    fraction = [] ∨ ∃ digits, fraction = '.' :: digits ∧ Digits digits := by
  unfold fractionPart at h
  split at h
  · split at h
    · cases h
    · next nonempty =>
      cases h
      exact .inr ⟨_, rfl, digits_takeWhile nonempty⟩
  · cases h
    exact .inl rfl

theorem exponentPart_spelled {cs exponent rest : List Char}
    (h : exponentPart cs = .ok (exponent, rest)) :
    exponent = [] ∨ ∃ e mark digits, exponent = e :: (mark ++ digits) ∧ (e = 'e' ∨ e = 'E') ∧
      (mark = [] ∨ mark = ['+'] ∨ mark = ['-']) ∧ Digits digits := by
  unfold exponentPart at h
  split at h
  · next e tail =>
    split at h
    · next letter =>
      simp only at h
      split at h
      · cases h
      · next nonempty =>
        cases h
        refine .inr ⟨e, _, _, rfl, letter, ?_, digits_takeWhile nonempty⟩
        rcases spanSign_fst (fun c => c == '+' || c == '-') tail with none | ⟨c, one, sign⟩
        · exact .inl none
        · rw [Bool.or_eq_true, beq_iff_eq, beq_iff_eq] at sign
          rcases sign with rfl | rfl
          · exact .inr (.inl one)
          · exact .inr (.inr one)
    · cases h
      exact .inl rfl
  · cases h
    exact .inl rfl

theorem noDigit_dropWhile (cs : List Char) : NoDigit (cs.dropWhile Char.isDigit) := by
  intro c first
  have stops := List.head?_dropWhile_not Char.isDigit cs
  rw [first] at stops
  exact stops

theorem integerPart_stops {cs whole rest : List Char} (h : integerPart cs = .ok (whole, rest)) :
    NoDigit rest := by
  unfold integerPart at h
  split at h
  · next tail =>
    split at h
    · cases h
    · next zero =>
      cases h
      intro c first
      rw [first] at zero
      exact Bool.eq_false_iff.mpr zero
  · split at h
    · cases h
    · cases h
      exact noDigit_dropWhile cs

theorem fractionPart_stops {cs fraction rest : List Char} (stops : NoDigit cs)
    (h : fractionPart cs = .ok (fraction, rest)) : NoDigit rest := by
  unfold fractionPart at h
  split at h
  · split at h
    · cases h
    · cases h
      exact noDigit_dropWhile _
  · cases h
    exact stops

theorem exponentPart_stops {cs exponent rest : List Char} (stops : NoDigit cs)
    (h : exponentPart cs = .ok (exponent, rest)) : NoDigit rest := by
  unfold exponentPart at h
  split at h
  · split at h
    · simp only at h
      split at h
      · cases h
      · cases h
        exact noDigit_dropWhile _
    · cases h
      exact stops
  · cases h
    exact stops

/-- What reads as a number is spelled like one, and nothing runs into it. -/
theorem number_spelling {cs : List Char} {s : Scan} (h : number cs = .ok s) :
    ∃ sign whole fraction exponent, NumberSpelling sign whole fraction exponent ∧
      s.text = sign ++ whole ++ fraction ++ exponent ∧
      s.kind = (if fraction.isEmpty && exponent.isEmpty then TokenKind.int else TokenKind.float)
        (String.ofList s.text) ∧ EndsNumber s.rest := by
  unfold number at h
  simp only [bind, Except.bind] at h
  split at h
  · cases h
  next whole read_whole =>
  split at h
  · cases h
  next fraction read_fraction =>
  split at h
  · cases h
  next exponent read_exponent =>
  split at h
  · cases h
  next ended =>
  cases h
  have stops : NoDigit exponent.2 := exponentPart_stops
    (fractionPart_stops (integerPart_stops read_whole) read_fraction) read_exponent
  refine ⟨_, _, _, _, ⟨?_, integerPart_spelled read_whole, fractionPart_spelled read_fraction,
    exponentPart_spelled read_exponent⟩, rfl, rfl, fun c first => ⟨stops c first, ?_⟩⟩
  · rcases spanSign_fst (· == '-') cs with none | ⟨c, one, sign⟩
    · exact .inl none
    · rw [beq_iff_eq] at sign
      subst sign
      exact .inr one
  · unfold checkNumberEnd at ended
    split at ended
    · next d tail shape =>
      have same : d = c := by
        rw [shape] at first
        exact Option.some.inj first
      subst same
      split at ended
      · cases ended
      · next free =>
        rw [not_or, Bool.not_eq_true] at free
        exact free
    · next shape =>
      rw [shape] at first
      cases first

theorem number_wellSpelled {cs : List Char} {s : Scan} (h : number cs = .ok s) :
    s.kind.WellSpelled := by
  obtain ⟨sign, whole, fraction, exponent, spelled, text, kind, -⟩ := number_spelling h
  rw [kind, text]
  by_cases plain : (fraction.isEmpty && exponent.isEmpty) = true
  · have parts := plain
    rw [Bool.and_eq_true, List.isEmpty_iff, List.isEmpty_iff] at parts
    obtain ⟨rfl, rfl⟩ := parts
    refine ⟨sign, whole, spelled, ?_⟩
    rw [String.toList_ofList, List.append_nil, List.append_nil]
  · have parts : fraction ≠ [] ∨ exponent ≠ [] := by
      rw [Bool.and_eq_true, List.isEmpty_iff, List.isEmpty_iff] at plain
      exact Decidable.not_and_iff_not_or_not.mp plain
    simp only [plain]
    exact ⟨sign, whole, fraction, exponent, spelled, parts, String.toList_ofList⟩

theorem scan_wellSpelled {c : Char} {rest : List Char} {s : Scan} (h : scan c rest = .ok s) :
    s.kind.WellSpelled := by
  unfold scan at h
  split at h
  · cases h
    trivial
  split at h
  · split at h
    · cases h
      trivial
    · cases h
  split at h
  · unfold string at h
    split at h <;> split at h <;> cases h <;> trivial
  split at h
  · cases read : number (c :: rest) with
    | error fault =>
      rw [read] at h
      cases h
    | ok inner =>
      rw [read] at h
      cases h
      exact number_wellSpelled read
  split at h
  · next start =>
    cases h
    rw [TokenKind.WellSpelled, IsName, String.toList_ofList]
    refine ⟨start, fun d member => ?_⟩
    exact List.all_eq_true.mp (List.all_takeWhile (p := isNameContinue) (l := rest)) d member
  · cases h

/-- The names and numbers among the tokens of a text are spelled as such. -/
theorem Lexes.wellSpelled {cs : List Char} {kinds : List TokenKind} (h : Lexes cs kinds) :
    ∀ kind ∈ kinds, kind.WellSpelled := by
  induction h with
  | finish ignored => simp [TokenKind.WellSpelled]
  | lexeme ignored scanned behind ih =>
    intro kind member
    rcases List.mem_cons.mp member with rfl | later
    · exact scan_wellSpelled scanned
    · exact ih kind later

end SchemaCompiler.Lexer
