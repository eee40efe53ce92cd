import SchemaCompiler.Proofs.Source.Cutting

/-!
Sources behind each other.

Where a line feed stands between two texts, the lexemes of both stay what they are: those of the
first where they are, and those of the second so many lines further down as the first and the line
feed have line ends.
-/

namespace SchemaCompiler

/-- The line ends of a text. A carriage return and the line feed behind it are one. -/
def lineEnds (cs : List Char) : Nat := (BlockString.unifyLineEnds cs).count '\n'

theorem lineEnds_cons {c : Char} {rest : List Char}
    (single : ∀ more, c = '\r' → rest = '\n' :: more → False) :
    lineEnds (c :: rest) = lineEnds rest + if c = '\n' ∨ c = '\r' then 1 else 0 := by
  rw [lineEnds, BlockString.unifyLineEnds, List.count_cons, lineEnds]
  · congr 1
    by_cases carriage : c = '\r'
    · simp [carriage]
    · simp [carriage]
  · exact single

namespace Position

/-- So many lines further down. -/
def down (n : Nat) (p : Position) : Position := ⟨p.line + n.toUInt32, p.column⟩

theorem advance_end {c : Char} {rest : List Char} (p : Position)
    (single : ∀ more, c = '\r' → rest = '\n' :: more → False) (line : c = '\n' ∨ c = '\r') :
    p.advance (c :: rest) = (⟨p.line + 1, 1⟩ : Position).advance rest := by
  rw [advance, if_pos line]
  exact single

theorem advance_inside {c : Char} (rest : List Char) (p : Position) (line : ¬ (c = '\n' ∨ c = '\r')) :
    p.advance (c :: rest) = (⟨p.line, p.column + 1⟩ : Position).advance rest := by
  rw [advance, if_neg line]
  intro more carriage _
  exact line (.inr carriage)

theorem advance_down (n : Nat) (p : Position) (cs : List Char) :
    (p.down n).advance cs = (p.advance cs).down n := by
  fun_induction advance p cs with
  | case1 p => rfl
  | case2 p rest ih => rw [advance, ih]
  | case3 p c rest single line ih =>
    have next : p.line + n.toUInt32 + 1 = p.line + 1 + n.toUInt32 := by
      rw [UInt32.add_assoc, UInt32.add_comm n.toUInt32, ← UInt32.add_assoc]
    rw [← ih, advance_end _ single line, down, down, next]
  | case4 p c rest single line ih => rw [← ih, advance_inside rest _ line, down, down]

/-- A text may be walked in two parts unless a line end is parted. -/
theorem advance_append {front rest : List Char} (p : Position)
    (whole : front.getLast? ≠ some '\r' ∨ rest.head? ≠ some '\n') :
    p.advance (front ++ rest) = (p.advance front).advance rest := by
  fun_induction advance p front with
  | case1 p => rfl
  | case2 p front ih =>
    rw [List.cons_append, List.cons_append, advance]
    exact ih whole
  | case3 p c front single line ih =>
    have single' : ∀ more, c = '\r' → front ++ rest = '\n' :: more → False := by
      intro more carriage shape
      cases front with
      | nil =>
        rcases whole with last | first
        · exact last (congrArg some carriage)
        · exact first (congrArg List.head? shape)
      | cons d front =>
        cases shape
        exact single front carriage rfl
    rw [List.cons_append, advance_end p single' line]
    apply ih
    cases front with
    | nil => exact .inl (by simp)
    | cons d front => exact whole
  | case4 p c front single line ih =>
    rw [List.cons_append, advance_inside _ _ line]
    apply ih
    cases front with
    | nil => exact .inl (by simp)
    | cons d front => exact whole

theorem line_advance (p : Position) (cs : List Char) :
    (p.advance cs).line = p.line + (lineEnds cs).toUInt32 := by
  fun_induction advance p cs with
  | case1 p => exact (UInt32.add_zero p.line).symm
  | case2 p rest ih => exact ih
  | case3 p c rest single line ih =>
    rw [ih, lineEnds_cons single, if_pos line, Nat.toUInt32, UInt32.ofNat_add, UInt32.add_assoc,
      UInt32.add_comm 1]
    rfl
  | case4 p c rest single line ih =>
    rw [ih, lineEnds_cons single, if_neg line]
    rfl

theorem column_advance {cs : List Char} {last : Char} (p : Position) (line : last = '\n' ∨ last = '\r')
    (ends : cs.getLast? = some last) : (p.advance cs).column = 1 := by
  fun_induction advance p cs with
  | case1 p => cases ends
  | case2 p rest ih => exact ih ends
  | case3 p c rest single here ih =>
    cases rest with
    | nil => rfl
    | cons d rest => exact ih ends
  | case4 p c rest single other ih =>
    cases rest with
    | nil =>
      cases ends
      exact absurd line other
    | cons d rest => exact ih ends

theorem advance_line_feed (cs : List Char) :
    start.advance (cs ++ ['\n']) = start.down (lineEnds (cs ++ ['\n'])) := by
  have column := column_advance start (.inl rfl) (List.getLast?_concat (l := cs) (a := '\n'))
  have line := line_advance start (cs ++ ['\n'])
  generalize start.advance (cs ++ ['\n']) = p at line column
  obtain ⟨l, c⟩ := p
  cases line
  cases column
  rfl

end Position

namespace Lexer

/-! ## Lexemes in front of more text -/

/-- What a text does not begin with, it does not begin with when a character of no use follows. -/
theorem prefix_of_prefix_append {front text rest : List Char} {c : Char}
    (h : front <+: text ++ c :: rest) (absent : c ∉ front) : front <+: text := by
  induction front generalizing text with
  | nil => exact List.nil_prefix
  | cons d front ih =>
    rw [List.mem_cons, not_or] at absent
    cases text with
    | nil =>
      rw [List.nil_append, List.cons_prefix_cons] at h
      exact absurd h.1.symm absent.1
    | cons e text =>
      rw [List.cons_append, List.cons_prefix_cons] at h
      rw [List.cons_prefix_cons]
      exact ⟨h.1, ih h.2 absent.2⟩

theorem endsName_append {rest : List Char} (ends : EndsName rest) (tail : List Char) :
    EndsName (rest ++ '\n' :: tail) := by
  cases rest with
  | nil =>
    intro c first
    cases first
    decide
  | cons d rest => exact ends

theorem endsNumber_append {rest : List Char} (ends : EndsNumber rest) (tail : List Char) :
    EndsNumber (rest ++ '\n' :: tail) := by
  cases rest with
  | nil =>
    intro c first
    cases first
    decide
  | cons d rest => exact ends

/-- A lexeme stays one when a line feed and more text follow what follows it. -/
theorem Lexeme.append {rest text : List Char} {kind : TokenKind} (h : Lexeme rest text kind)
    (tail : List Char) : Lexeme (rest ++ '\n' :: tail) text kind := by
  cases h with
  | name spelled ends => exact .name spelled (endsName_append ends tail)
  | int spelled ends => exact .int spelled (endsNumber_append ends tail)
  | float spelled parts ends => exact .float spelled parts (endsNumber_append ends tail)
  | @quoted text value inside single =>
    refine .quoted inside fun begins => single ?_
    have shape : '"' :: (text ++ '"' :: (rest ++ '\n' :: tail)) =
        '"' :: (text ++ '"' :: rest) ++ '\n' :: tail := by
      simp only [List.cons_append, List.append_assoc]
    rw [shape] at begins
    exact prefix_of_prefix_append begins (by decide)
  | block inside => exact .block inside
  | mark mark => exact .mark mark
  | spread => exact .spread

theorem Lexeme.text_ne_nil {rest text : List Char} {kind : TokenKind} (h : Lexeme rest text kind) :
    text ≠ [] := by
  obtain ⟨c, cs, rfl, -⟩ := h.scansBefore
  exact List.cons_ne_nil c cs

theorem IgnoredRun.append_of_ne_nil {rest run : List Char} (h : IgnoredRun rest run)
    (nonempty : rest ≠ []) (tail : List Char) : IgnoredRun (rest ++ tail) run := by
  induction h with
  | nil => exact .nil
  | char ignored more ih => exact .char ignored ih
  | @comment body run inside ends more ih =>
    obtain ⟨d, rest, rfl⟩ := List.exists_cons_of_ne_nil nonempty
    refine .comment inside ?_ ih
    intro c first
    cases run with
    | nil => exact ends c first
    | cons e run => exact ends c first

theorem IgnoredRun.line_feed {front run rest : List Char} (h : IgnoredRun [] front)
    (h' : IgnoredRun rest run) : IgnoredRun rest (front ++ '\n' :: run) := by
  induction h with
  | nil => exact .char rfl h'
  | char ignored more ih => exact .char ignored ih
  | @comment body front inside ends more ih =>
    have ends' : ∀ c, (front ++ '\n' :: run ++ rest).head? = some c → isLineEnd c = true := by
      intro c first
      cases front with
      | nil =>
        cases first
        rfl
      | cons d front => exact ends c first
    have longer := IgnoredRun.comment inside ends' ih
    rwa [← List.append_assoc, ← List.cons_append] at longer

/-! ## Cuts behind each other -/

/-- More ignored text in front of a cut. -/
def prepend (run : List Char) : List Piece → List Char → List Piece × List Char
  | [], trailing => ([], run ++ trailing)
  | piece :: pieces, trailing => (⟨run ++ piece.ignored, piece.text, piece.kind⟩ :: pieces, trailing)

theorem IsCut.line_feed {cs cs' trailing trailing' : List Char} {pieces pieces' : List Piece}
    (h : IsCut cs pieces trailing) (h' : IsCut cs' pieces' trailing') :
    IsCut (cs ++ '\n' :: cs') (pieces ++ (prepend (trailing ++ ['\n']) pieces' trailing').1)
      (prepend (trailing ++ ['\n']) pieces' trailing').2 := by
  induction h with
  | @finish trailing ignored =>
    cases h' with
    | finish ignored' =>
      have last := IsCut.finish (ignored.line_feed ignored')
      rw [List.append_cons] at last ⊢
      exact last
    | @piece piece rest pieces _ ignored' lexeme more =>
      have first := @IsCut.piece ⟨trailing ++ '\n' :: piece.ignored, piece.text, piece.kind⟩ rest
        pieces trailing' (ignored.line_feed ignored') lexeme more
      have shape : trailing ++ '\n' :: (piece.ignored ++ (piece.text ++ rest)) =
          trailing ++ '\n' :: piece.ignored ++ (piece.text ++ rest) := by
        rw [List.append_assoc, List.cons_append]
      have run : trailing ++ ['\n'] ++ piece.ignored = trailing ++ '\n' :: piece.ignored :=
        (List.append_cons trailing '\n' piece.ignored).symm
      rw [shape, prepend, run]
      exact first
  | @piece piece rest pieces trailing ignored lexeme more ih =>
    have nonempty : piece.text ++ rest ≠ [] := by
      simp [lexeme.text_ne_nil]
    have run := ignored.append_of_ne_nil nonempty ('\n' :: cs')
    rw [List.append_assoc] at run
    have first := IsCut.piece run (lexeme.append cs') ih
    rw [List.append_assoc, List.append_assoc]
    exact first

/-! ## Places -/

/-- No line end is parted between ignored text and a lexeme, or between a lexeme and the rest. -/
theorem Lexeme.head?_ne {rest text : List Char} {kind : TokenKind} (h : Lexeme rest text kind)
    (tail : List Char) : (text ++ tail).head? ≠ some '\n' := by
  obtain ⟨c, cs, rfl, kept, -⟩ := h.scansBefore
  intro first
  cases first
  cases kept

theorem carriage_not_mem_digits {digits : List Char} (h : Digits digits) : '\r' ∉ digits :=
  fun member => absurd (h.2 _ member) (by decide)

theorem carriage_not_mem_number {sign whole fraction exponent : List Char}
    (h : NumberSpelling sign whole fraction exponent) :
    '\r' ∉ sign ++ whole ++ fraction ++ exponent := by
  have in_sign : '\r' ∉ sign := by
    rcases h.sign with rfl | rfl <;> decide
  have in_whole : '\r' ∉ whole := by
    rcases h.whole with rfl | ⟨digits, -⟩
    · decide
    · exact carriage_not_mem_digits digits
  have in_fraction : '\r' ∉ fraction := by
    rcases h.fraction with rfl | ⟨digits, rfl, spelled⟩
    · exact List.not_mem_nil
    · simp [carriage_not_mem_digits spelled]
  have in_exponent : '\r' ∉ exponent := by
    rcases h.exponent with rfl | ⟨e, mark, digits, rfl, letter, sign, spelled⟩
    · exact List.not_mem_nil
    · have other : '\r' ∉ mark := by
        rcases sign with rfl | rfl | rfl <;> decide
      rcases letter with rfl | rfl <;> simp [other, carriage_not_mem_digits spelled]
  simp only [List.mem_append, not_or]
  exact ⟨⟨⟨in_sign, in_whole⟩, in_fraction⟩, in_exponent⟩

theorem BlockText.exists_front {text raw : List Char} (h : BlockText text raw) :
    ∃ front, text = front ++ ['"'] := by
  induction h with
  | close => exact ⟨['"', '"'], rfl⟩
  | escape more ih =>
    obtain ⟨front, rfl⟩ := ih
    exact ⟨'\\' :: (threeQuotes ++ front), rfl⟩
  | @plain c text raw closed escaped more ih =>
    obtain ⟨front, rfl⟩ := ih
    exact ⟨c :: front, rfl⟩

theorem Lexeme.getLast?_ne {rest text : List Char} {kind : TokenKind} (h : Lexeme rest text kind) :
    text.getLast? ≠ some '\r' := by
  cases h with
  | name spelled ends =>
    intro last
    have member := List.mem_of_getLast? last
    cases text with
    | nil => exact spelled
    | cons c text =>
      rcases List.mem_cons.mp member with rfl | inside
      · exact absurd spelled.1 (by decide)
      · exact absurd (spelled.2 _ inside) (by decide)
  | int spelled ends =>
    intro last
    have absent := carriage_not_mem_number spelled
    rw [List.append_nil, List.append_nil] at absent
    exact absent (List.mem_of_getLast? last)
  | float spelled parts ends =>
    exact fun last => carriage_not_mem_number spelled (List.mem_of_getLast? last)
  | quoted inside single =>
    rw [← List.cons_append, List.getLast?_concat]
    decide
  | block inside =>
    obtain ⟨front, rfl⟩ := inside.exists_front
    rw [← List.append_assoc, List.getLast?_concat]
    decide
  | mark mark => cases mark <;> decide
  | spread => decide

/-- Where the pieces that begin at `p` end. -/
def behindPieces (p : Position) : List Piece → Position
  | [] => p
  | piece :: pieces => behindPieces ((p.advance piece.ignored).advance piece.text) pieces

theorem CutsOff.advance {cs left : List Char} {pieces : List Piece} (h : CutsOff left cs pieces)
    (p : Position) (tail : List Char) :
    p.advance (written pieces ++ tail) = (behindPieces p pieces).advance tail := by
  induction h generalizing p with
  | nothing => rfl
  | @piece piece rest pieces ignored lexeme more ih =>
    rw [written_cons, List.append_assoc, List.append_assoc,
      Position.advance_append p (.inr (lexeme.head?_ne _)),
      Position.advance_append _ (.inl lexeme.getLast?_ne), ih, behindPieces]

theorem IsCut.advance {cs trailing : List Char} {pieces : List Piece} (h : IsCut cs pieces trailing)
    (p : Position) (tail : List Char) :
    p.advance (cs ++ tail) = (behindPieces p pieces).advance (trailing ++ tail) := by
  rw [h.cutsOff.text_eq, List.append_assoc, h.cutsOff.advance]

/-- The tokens of the pieces that begin at `p`. -/
def lexemesAt (p : Position) : List Piece → List Token
  | [] => []
  | piece :: pieces =>
    let here := p.advance piece.ignored
    ⟨piece.kind, here⟩ :: lexemesAt (here.advance piece.text) pieces

theorem placed_append (p : Position) (pieces pieces' : List Piece) (trailing : List Char) :
    placed p (pieces ++ pieces') trailing =
      lexemesAt p pieces ++ placed (behindPieces p pieces) pieces' trailing := by
  induction pieces generalizing p with
  | nil => rfl
  | cons piece pieces ih =>
    rw [List.cons_append, placed, ih]
    rfl

theorem placed_eq (p : Position) (pieces : List Piece) (trailing : List Char) :
    placed p pieces trailing =
      lexemesAt p pieces ++ [⟨.eof, (behindPieces p pieces).advance trailing⟩] := by
  have whole := placed_append p pieces [] trailing
  rwa [List.append_nil] at whole

/-- A token so many lines further down. -/
def tokenDown (n : Nat) (t : Token) : Token := ⟨t.kind, t.position.down n⟩

theorem placed_down (n : Nat) (p : Position) (pieces : List Piece) (trailing : List Char) :
    placed (p.down n) pieces trailing = (placed p pieces trailing).map (tokenDown n) := by
  induction pieces generalizing p with
  | nil => simp only [placed, Position.advance_down, List.map_cons, List.map_nil, tokenDown]
  | cons piece pieces ih =>
    simp only [placed, Position.advance_down, List.map_cons, tokenDown, ih]

/-- Where other text leads to the same place, the tokens are the same. -/
theorem placed_prepend {p q : Position} {run : List Char}
    (same : ∀ tail, p.advance (run ++ tail) = q.advance tail) (pieces : List Piece)
    (trailing : List Char) :
    placed p (prepend run pieces trailing).1 (prepend run pieces trailing).2 =
      placed q pieces trailing := by
  cases pieces with
  | nil => simp only [prepend, placed, same]
  | cons piece pieces => simp only [prepend, placed, same]

theorem IsCut.tokens_line_feed {cs cs' trailing trailing' : List Char} {pieces pieces' : List Piece}
    (h : IsCut cs pieces trailing) (h' : IsCut cs' pieces' trailing') :
    tokensFrom .start (cs ++ '\n' :: cs') =
      .ok (lexemesAt .start pieces ++
        (placed .start pieces' trailing').map (tokenDown (lineEnds (cs ++ ['\n'])))) := by
  have leads (tail : List Char) :
      (behindPieces .start pieces).advance (trailing ++ ['\n'] ++ tail) =
        (Position.start.down (lineEnds (cs ++ ['\n']))).advance tail := by
    have parted : (cs ++ ['\n']).getLast? ≠ some '\r' := by
      simp
    rw [List.append_assoc, ← h.advance, ← List.append_assoc,
      Position.advance_append _ (.inl parted), Position.advance_line_feed]
  rw [(h.line_feed h').tokensFrom_eq, placed_append, placed_prepend leads, placed_down]

end Lexer

end SchemaCompiler
