import SchemaCompiler.Proofs.Source.Appending

/-!
Where tokens and lexical faults stand.

Lines and columns are counted from a text alone, without walking it: a place stands behind a text if
it has one line more than the text has line ends, and one column more than there are characters
behind the last of them. Every token stands behind the text in front of its lexeme, and a fault
behind the text in front of what should have been a lexeme or an escape.
-/

namespace SchemaCompiler

/-- The number of characters behind the last line end. -/
def lastLineLength (cs : List Char) : Nat :=
  (cs.reverse.takeWhile fun c => !Lexer.isLineEnd c).length

namespace Position

/-- The line and the column behind a text at the beginning of a source, as they fit in 32 bits. -/
def counted (text : List Char) : Position :=
  ⟨(1 + lineEnds text).toUInt32, (1 + lastLineLength text).toUInt32⟩

/-- The place has the line and the column behind a text at the beginning of a source. -/
structure StandsBehind (place : Position) (text : List Char) : Prop where
  line : place.line.toNat = 1 + lineEnds text
  column : place.column.toNat = 1 + lastLineLength text

/-! ## Counting -/

/-- A text without line ends. -/
def Unbroken (cs : List Char) : Prop := ∀ c ∈ cs, Lexer.isLineEnd c = false

/-- What ends with a line end, if with anything, does not count towards the last line. -/
theorem lastLineLength_append {front line : List Char} (h : Unbroken line)
    (ends : ∀ c, front.getLast? = some c → Lexer.isLineEnd c = true) :
    lastLineLength (front ++ line) = line.length := by
  have all : ∀ c ∈ line.reverse, (!Lexer.isLineEnd c) = true := by
    intro c member
    rw [h c (List.mem_reverse.mp member)]
    rfl
  have none : front.reverse.takeWhile (fun c => !Lexer.isLineEnd c) = [] := by
    rw [← List.head?_reverse] at ends
    cases shape : front.reverse with
    | nil => rfl
    | cons c cs =>
      have line_end := ends c (by rw [shape]; rfl)
      exact List.takeWhile_cons_of_neg (by simp [line_end])
  rw [lastLineLength, List.reverse_append, List.takeWhile_append_of_pos all, none, List.append_nil,
    List.length_reverse]

theorem exists_last_line (cs : List Char) :
    ∃ front line, cs = front ++ line ∧ Unbroken line ∧
      ∀ c, front.getLast? = some c → Lexer.isLineEnd c = true := by
  induction cs with
  | nil => exact ⟨[], [], rfl, List.forall_mem_nil _, by simp⟩
  | cons c cs ih =>
    obtain ⟨front, line, rfl, plain, ends⟩ := ih
    cases front with
    | cons d front => exact ⟨c :: d :: front, line, rfl, plain, ends⟩
    | nil =>
      by_cases here : Lexer.isLineEnd c = true
      · exact ⟨[c], line, rfl, plain, fun d last => Option.some.inj last ▸ here⟩
      · exact ⟨[], c :: line, rfl, List.forall_mem_cons.mpr ⟨Bool.eq_false_iff.mpr here, plain⟩,
          by simp⟩

theorem isLineEnd_iff (c : Char) : Lexer.isLineEnd c = true ↔ c = '\n' ∨ c = '\r' := by
  rw [Lexer.isLineEnd, Bool.or_eq_true, beq_iff_eq, beq_iff_eq]

theorem column_advance_unbroken {line : List Char} (p : Position) (h : Unbroken line) :
    (p.advance line).column = p.column + line.length.toUInt32 := by
  induction line generalizing p with
  | nil => exact (UInt32.add_zero p.column).symm
  | cons c line ih =>
    rw [Unbroken, List.forall_mem_cons] at h
    have other : ¬ (c = '\n' ∨ c = '\r') := by
      rw [← isLineEnd_iff, h.1]
      exact Bool.false_ne_true
    have next : line.length.toUInt32 + 1 = (line.length + 1).toUInt32 :=
      (UInt32.ofNat_add line.length 1).symm
    rw [advance_inside line p other, ih _ h.2, List.length_cons, UInt32.add_assoc, UInt32.add_comm 1,
      next]

theorem column_advance_start (cs : List Char) :
    (start.advance cs).column = (1 + lastLineLength cs).toUInt32 := by
  obtain ⟨front, line, rfl, plain, ends⟩ := exists_last_line cs
  have apart : line.head? ≠ some '\n' := by
    intro first
    exact absurd (plain _ (List.mem_of_head? first)) (by decide)
  have margin : (start.advance front).column = 1 := by
    cases last : front.getLast? with
    | none =>
      rw [List.getLast?_eq_none_iff.mp last]
      rfl
    | some c => exact column_advance start ((isLineEnd_iff c).mp (ends c last)) last
  rw [advance_append start (.inr apart), column_advance_unbroken _ plain, margin,
    lastLineLength_append plain ends]
  exact (UInt32.ofNat_add 1 line.length).symm

/-- Walking a text from its start is counting it. -/
theorem advance_start (text : List Char) : start.advance text = counted text := by
  have line := line_advance start text
  have column := column_advance_start text
  have one_more : start.line + (lineEnds text).toUInt32 = (1 + lineEnds text).toUInt32 :=
    (UInt32.ofNat_add 1 (lineEnds text)).symm
  rw [one_more] at line
  rw [counted, ← line, ← column]

theorem lastLineLength_le (cs : List Char) : lastLineLength cs ≤ cs.length := by
  have short := (List.takeWhile_sublist (l := cs.reverse) fun c => !Lexer.isLineEnd c).length_le
  rwa [List.length_reverse] at short

theorem lineEnds_le (cs : List Char) : lineEnds cs ≤ cs.length := by
  have shrinks : (BlockString.unifyLineEnds cs).length ≤ cs.length := by
    fun_induction BlockString.unifyLineEnds cs with
    | case1 => exact Nat.le_refl 0
    | case2 rest ih => simp only [List.length_cons]; omega
    | case3 c rest _ ih => simp only [List.length_cons]; omega
  exact Nat.le_trans List.count_le_length shrinks

/-- No number wraps around in front of the last of 2^32 characters. -/
theorem standsBehind_counted {text : List Char} (short : text.length + 1 < UInt32.size) :
    StandsBehind (counted text) text := by
  have lines := lineEnds_le text
  have columns := lastLineLength_le text
  constructor
  · exact UInt32.toNat_ofNat_of_lt' (by omega)
  · exact UInt32.toNat_ofNat_of_lt' (by omega)

end Position

namespace Lexer

open Position

/-! ## Tokens -/

/-- Each piece has a token, which stands behind the text in front of its lexeme, and the end of the
source has the last one.

A token with a first character is never too far down or too far to the right for 32 bits. The end
has none. It stands behind all of the text, and may just not fit. -/
structure TokensStand (source : List Char) (pieces : List Piece) (tokens : List Token) : Prop where
  count : tokens.length = pieces.length + 1
  each : ∀ before piece after, pieces = before ++ piece :: after →
    ∃ place behind, tokens[before.length]? = some ⟨piece.kind, place⟩ ∧
      source = written before ++ piece.ignored ++ (piece.text ++ behind) ∧
      StandsBehind place (written before ++ piece.ignored)
  last : ∃ place, tokens[pieces.length]? = some ⟨.eof, place⟩ ∧ place = counted source ∧
    (source.length + 1 < UInt32.size → StandsBehind place source)

theorem length_lexemesAt (p : Position) (pieces : List Piece) :
    (lexemesAt p pieces).length = pieces.length := by
  induction pieces generalizing p with
  | nil => rfl
  | cons piece pieces ih => rw [lexemesAt, List.length_cons, ih, List.length_cons]

/-- A place in front of a character of a source that fits counts the text in front of it. -/
theorem standsBehind_front {front behind : List Char} (nonempty : behind ≠ [])
    (short : (front ++ behind).length < UInt32.size) : StandsBehind (counted front) front := by
  apply standsBehind_counted
  have some_left := List.length_pos_iff.mpr nonempty
  rw [List.length_append] at short
  omega

theorem IsCut.tokensStand {source trailing : List Char} {pieces : List Piece}
    (cut : IsCut source pieces trailing) (short : source.length < UInt32.size) :
    TokensStand source pieces (placed .start pieces trailing) := by
  refine ⟨?_, ?_, ?_⟩
  · rw [placed_eq, List.length_append, length_lexemesAt]
    rfl
  · rintro before piece after rfl
    obtain ⟨rest, front, back⟩ := cut.cutsOff.split
    cases back with
    | @piece _ behind _ ignored lexeme more =>
    have here : (behindPieces .start before).advance piece.ignored =
        counted (written before ++ piece.ignored) := by
      rw [← front.advance, advance_start]
    have whole : source = written before ++ piece.ignored ++ (piece.text ++ behind) := by
      rw [front.text_eq, List.append_assoc]
    have nonempty : piece.text ++ behind ≠ [] := by
      simp [lexeme.text_ne_nil]
    refine ⟨_, behind, ?_, whole, standsBehind_front nonempty (whole ▸ short)⟩
    rw [placed_append, ← length_lexemesAt .start before, List.getElem?_append_right (Nat.le_refl _),
      Nat.sub_self, placed, ← here]
    rfl
  · have here : (behindPieces .start pieces).advance trailing = counted source := by
      rw [← cut.cutsOff.advance, ← cut.cutsOff.text_eq, advance_start]
    refine ⟨_, ?_, rfl, standsBehind_counted⟩
    rw [placed_eq, here, ← length_lexemesAt .start pieces, List.getElem?_concat_length]

/-! ## Faults -/

/-- No lexeme stands at the front of the text. -/
def NoLexeme (cs : List Char) : Prop := ∀ text rest kind, cs = text ++ rest → ¬ Lexeme rest text kind

/-- A backslash stands at the front of the text, and no escape. -/
structure NoEscape (cs : List Char) : Prop where
  slash : cs.head? = some '\\'
  free : ∀ text value rest, cs = text ++ rest → ¬ QuotedText text [value]

/-- The faults that are about an escape and not about the whole lexeme. -/
def isEscapeFault : LexicalFault → Bool
  | .invalidEscape _ | .invalidUnicodeEscape => true
  | _ => false

/-- Where no lexeme stands, a fault points at the front of the text or, behind a quote and sound
text, at a backslash that begins no escape. -/
inductive Offends (cs : List Char) : List Char → LexicalFault → Prop where
  | lexeme {fault : LexicalFault} (whole : isEscapeFault fault = false) : Offends cs [] fault
  | escape {text value left : List Char} {fault : LexicalFault} (inner : isEscapeFault fault = true)
      (single : ¬ threeQuotes <+: cs) (inside : QuotedText text value) (broken : NoEscape left)
      (shape : cs = '"' :: (text ++ left)) : Offends cs ('"' :: text) fault

/-- Sound pieces and ignored text stand in front of text without a lexeme, and the place is that of
the lexeme or escape that is missing there. -/
def FaultStands (source : List Char) (place : Position) (fault : LexicalFault) : Prop :=
  ∃ pieces ignored left front, CutsOff (ignored ++ left) source pieces ∧ IgnoredRun left ignored ∧
    EndsIgnored left ∧ left ≠ [] ∧ NoLexeme left ∧ Offends left front fault ∧
    StandsBehind place (written pieces ++ ignored ++ front)

/-- Text is left where a fault points at, and no line end is parted there. -/
theorem Offends.split {cs front : List Char} {fault : LexicalFault} (h : Offends cs front fault)
    (nonempty : cs ≠ []) :
    ∃ left, cs = front ++ left ∧ left ≠ [] ∧ front.head? ≠ some '\n' := by
  cases h with
  | lexeme whole => exact ⟨cs, rfl, nonempty, by simp⟩
  | @escape text value left fault inner single inside broken shape =>
    refine ⟨left, shape, ?_, by simp⟩
    rintro rfl
    cases broken.slash

theorem noEscape_of {cs : List Char} (slash : cs.head? = some '\\')
    (simple : ∀ c tail, cs = '\\' :: c :: tail → simpleEscape? c = none)
    (unicode : ∀ a b c d tail, cs = '\\' :: 'u' :: a :: b :: c :: d :: tail →
      unicodeEscape? a b c d = none) : NoEscape cs := by
  refine ⟨slash, ?_⟩
  rintro text value rest rfl inside
  cases inside with
  | plain quote other feed carriage more => exact other (Option.some.inj slash)
  | escape known more =>
    have read := simpleEscape?_eq_some_iff.mpr known
    cases (simple _ _ rfl).symm.trans read
  | unicode first second third fourth point more =>
    have read := unicodeEscape?_eq_some_iff.mpr ⟨_, _, _, _, first, second, third, fourth, point⟩
    cases (unicode _ _ _ _ _ rfl).symm.trans read

theorem push_eq_error {v : Char} {text : List Char} {r : Except Stop Quoted} {s : Stop}
    (h : Quoted.push v text r = .error s) :
    ∃ inner, r = .error inner ∧ s = ⟨text ++ inner.before, inner.fault⟩ := by
  cases r with
  | ok q => cases h
  | error inner =>
    cases h
    exact ⟨inner, rfl, rfl⟩

/-- What a quoted string stops at: its missing end, or a backslash behind sound text. -/
theorem quotedBody_stops {cs : List Char} {s : Stop} (h : quotedBody cs = .error s) :
    s.fault = .unterminatedString ∨ isEscapeFault s.fault = true ∧
      ∃ value left, cs = s.before ++ left ∧ QuotedText s.before value ∧ NoEscape left := by
  fun_induction quotedBody cs generalizing s with
  | case1 =>
    cases h
    exact .inl rfl
  | case2 => cases h
  | case3 a b c d rest v known ih =>
    obtain ⟨inner, read, rfl⟩ := push_eq_error h
    refine (ih read).imp id ?_
    rintro ⟨escape, value, left, rfl, inside, broken⟩
    obtain ⟨i, j, k, l, first, second, third, fourth, point⟩ := unicodeEscape?_eq_some_iff.mp known
    exact ⟨escape, _, left, rfl, .unicode first second third fourth point inside, broken⟩
  | case4 a b c d rest unknown =>
    cases h
    refine .inr ⟨rfl, [], _, rfl, .nil, noEscape_of rfl ?_ ?_⟩
    · rintro c tail ⟨⟩
      rfl
    · rintro a b c d tail ⟨⟩
      exact unknown
  | case5 rest short =>
    cases h
    refine .inr ⟨rfl, [], _, rfl, .nil, noEscape_of rfl ?_ ?_⟩
    · rintro c tail ⟨⟩
      rfl
    · rintro a b c d tail ⟨⟩
      exact absurd rfl (short a b c d tail)
  | case6 c rest _ _ v known ih =>
    obtain ⟨inner, read, rfl⟩ := push_eq_error h
    refine (ih read).imp id ?_
    rintro ⟨escape, value, left, rfl, inside, broken⟩
    exact ⟨escape, _, left, rfl, .escape (simpleEscape?_eq_some_iff.mp known) inside, broken⟩
  | case7 c rest _ other unknown =>
    cases h
    refine .inr ⟨rfl, [], _, rfl, .nil, noEscape_of rfl ?_ ?_⟩
    · rintro d tail ⟨⟩
      exact unknown
    · rintro a b c d tail ⟨⟩
      exact absurd rfl other
  | case8 =>
    cases h
    refine .inr ⟨rfl, [], _, rfl, .nil, noEscape_of rfl ?_ ?_⟩
    · rintro c tail ⟨⟩
    · rintro a b c d tail ⟨⟩
  | case9 =>
    cases h
    exact .inl rfl
  | case10 c rest quote unicode short other last inside ih =>
    obtain ⟨inner, read, rfl⟩ := push_eq_error h
    refine (ih read).imp id ?_
    rintro ⟨escape, value, left, rfl, sound, broken⟩
    have slash := ne_slash other last
    rw [isLineEnd, Bool.or_eq_true, beq_iff_eq, beq_iff_eq, not_or] at inside
    exact ⟨escape, _, left, rfl, .plain quote slash inside.1 inside.2 sound, broken⟩

theorem string_stops {cs : List Char} {s : Stop} (h : string ('"' :: cs) = .error s) :
    Offends ('"' :: cs) s.before s.fault := by
  unfold string at h
  split at h
  · split at h
    · cases h
    · cases h
      exact .lexeme rfl
  · next single =>
    split at h
    · cases h
    · cases h
      exact .lexeme rfl
    · next stopped other read =>
      cases h
      obtain ⟨before, fault⟩ := stopped
      rcases quotedBody_stops read with rfl | ⟨escape, value, left, shape, inside, broken⟩
      · exact absurd rfl (other before)
      · refine .escape escape ?_ inside broken (congrArg _ shape)
        rintro ⟨tail, block⟩
        exact single tail block.symm

theorem integerPart_fails {cs : List Char} {fault : LexicalFault} (h : integerPart cs = .error fault) :
    isEscapeFault fault = false := by
  unfold integerPart at h
  split at h <;> split at h <;> cases h <;> rfl

theorem fractionPart_fails {cs : List Char} {fault : LexicalFault}
    (h : fractionPart cs = .error fault) : isEscapeFault fault = false := by
  unfold fractionPart at h
  split at h
  · split at h <;> cases h
    rfl
  · cases h

theorem exponentPart_fails {cs : List Char} {fault : LexicalFault}
    (h : exponentPart cs = .error fault) : isEscapeFault fault = false := by
  unfold exponentPart at h
  split at h
  · split at h
    · simp only at h
      split at h <;> cases h
      rfl
    · cases h
  · cases h

theorem checkNumberEnd_fails {rest : List Char} {fault : LexicalFault}
    (h : checkNumberEnd rest = .error fault) : isEscapeFault fault = false := by
  unfold checkNumberEnd at h
  split at h
  · split at h <;> cases h
    rfl
  · cases h

/-- No fault of a number is about an escape. -/
theorem number_fails {cs : List Char} {fault : LexicalFault} (h : number cs = .error fault) :
    isEscapeFault fault = false := by
  unfold number at h
  simp only [bind, Except.bind] at h
  split at h
  · next failed =>
    cases h
    exact integerPart_fails failed
  split at h
  · next failed =>
    cases h
    exact fractionPart_fails failed
  split at h
  · next failed =>
    cases h
    exact exponentPart_fails failed
  split at h
  · next failed =>
    cases h
    exact checkNumberEnd_fails failed
  · cases h

theorem scan_stops {c : Char} {cs : List Char} {s : Stop} (h : scan c cs = .error s) :
    Offends (c :: cs) s.before s.fault := by
  unfold scan at h
  split at h
  · cases h
  split at h
  · split at h
    · cases h
    · cases h
      exact .lexeme rfl
  split at h
  · next quote =>
    subst quote
    exact string_stops h
  split at h
  · cases read : number (c :: cs) with
    | error fault =>
      rw [read] at h
      cases h
      exact .lexeme (number_fails read)
    | ok inner =>
      rw [read] at h
      cases h
  split at h
  · cases h
  · cases h
    exact .lexeme rfl

/-- Text that does not scan has no lexeme at its front. -/
theorem noLexeme_of_scan {c : Char} {cs : List Char} {s : Stop} (h : scan c cs = .error s) :
    NoLexeme (c :: cs) := by
  intro text rest kind shape lexeme
  obtain ⟨d, tail, rfl, -, -, scanned⟩ := lexeme.scansBefore
  obtain ⟨rfl, rfl⟩ := List.cons.inj shape
  cases h.symm.trans scanned

theorem exists_stop_of_tokensFrom {p place : Position} {cs : List Char} {fault : LexicalFault}
    (h : tokensFrom p cs = .error (place, fault)) :
    ∃ pieces ignored c rest s, CutsOff (ignored ++ c :: rest) cs pieces ∧
      IgnoredRun (c :: rest) ignored ∧ EndsIgnored (c :: rest) ∧ scan c rest = .error s ∧
      s.fault = fault ∧ ((behindPieces p pieces).advance ignored).advance s.before = place := by
  fun_induction tokensFrom p cs with
  | case1 p cs => cases h
  | case2 =>
    rename_i p cs here c rest shape s scanned
    cases h
    obtain ⟨ends, run⟩ := ignoredRun_spanIgnored false cs
    have whole := spanIgnored_append false cs
    rw [shape] at ends run whole
    refine ⟨[], (spanIgnored false cs).1, c, rest, s, ?_, run, ends, scanned, rfl, rfl⟩
    rw [whole]
    exact .nothing
  | case3 =>
    rename_i p cs here c rest shape s scanned ih
    cases behind : tokensFrom (here.advance s.text) s.rest with
    | ok more =>
      rw [behind] at h
      cases h
    | error failure =>
      rw [behind] at h
      cases h
      obtain ⟨pieces, ignored, d, left, stop, cut, run, ends, failed, rfl, rfl⟩ := ih behind
      obtain ⟨-, run'⟩ := ignoredRun_spanIgnored false cs
      have whole := spanIgnored_append false cs
      have lexeme := (scan_append scanned).1
      rw [shape, ← lexeme] at run' whole
      have first := @CutsOff.piece _ ⟨(spanIgnored false cs).1, s.text, s.kind⟩ s.rest pieces
        run' (lexeme_of_scan scanned) cut
      rw [whole] at first
      exact ⟨_, ignored, d, left, stop, first, run, ends, failed, rfl, rfl⟩

theorem faultStands_of_tokensFrom {source : List Char} {place : Position} {fault : LexicalFault}
    (h : tokensFrom .start source = .error (place, fault)) (short : source.length < UInt32.size) :
    FaultStands source place fault := by
  obtain ⟨pieces, ignored, c, rest, s, cut, run, ends, failed, rfl, rfl⟩ :=
    exists_stop_of_tokensFrom h
  have offends := scan_stops failed
  refine ⟨pieces, ignored, c :: rest, s.before, cut, run, ends, List.cons_ne_nil c rest,
    noLexeme_of_scan failed, offends, ?_⟩
  obtain ⟨behind, shape, nonempty, apart⟩ := offends.split (List.cons_ne_nil c rest)
  have here : ((behindPieces .start pieces).advance ignored).advance s.before =
      counted (written pieces ++ ignored ++ s.before) := by
    rw [← Position.advance_append _ (.inr apart), ← cut.advance, advance_start, List.append_assoc]
  have whole : source = written pieces ++ ignored ++ s.before ++ behind := by
    rw [cut.text_eq, shape]
    simp only [List.append_assoc]
  rw [here]
  exact standsBehind_front nonempty (whole ▸ short)

end Lexer

end SchemaCompiler
