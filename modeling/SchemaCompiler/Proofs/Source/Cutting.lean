import SchemaCompiler.Proofs.Source.LexicalGrammar

/-!
A source is cut into ignored text and lexemes in one way at most, and its tokens are the lexemes of
that cut where they stand.
-/

namespace SchemaCompiler

namespace Lexer

/-! ## Ignored text -/

/-- Text that ignored text in front of it does not run into. -/
def EndsIgnored (rest : List Char) : Prop :=
  ∀ c, rest.head? = some c → isIgnored c = false ∧ c ≠ '#'

theorem spanIgnored_of_ends {rest : List Char} (ends : EndsIgnored rest) :
    spanIgnored false rest = ([], rest) := by
  cases rest with
  | nil => rfl
  | cons c rest =>
    obtain ⟨kept, hash⟩ := ends c rfl
    simp [spanIgnored, kept, hash]

theorem Lexeme.endsIgnored {rest text : List Char} {kind : TokenKind}
    (h : Lexeme rest text kind) (tail : List Char) : EndsIgnored (text ++ tail) := by
  obtain ⟨c, cs, rfl, kept, hash, -⟩ := h.scansBefore
  intro d first
  cases first
  exact ⟨kept, hash⟩

theorem isIgnored_of_isLineEnd {c : Char} (h : isLineEnd c = true) : isIgnored c = true := by
  rw [isLineEnd, Bool.or_eq_true, beq_iff_eq, beq_iff_eq] at h
  rcases h with rfl | rfl <;> rfl

theorem beq_hash_of_isIgnored {c : Char} (h : isIgnored c = true) : (c == '#') = false := by
  rw [beq_eq_false_iff_ne]
  rintro rfl
  exact absurd h (by decide)

theorem spanIgnored_comment {body rest : List Char} (inside : ∀ c ∈ body, isLineEnd c = false)
    (ends : ∀ c, rest.head? = some c → isLineEnd c = true) :
    spanIgnored true (body ++ rest) =
      (body ++ (spanIgnored false rest).1, (spanIgnored false rest).2) := by
  induction body with
  | nil =>
    cases rest with
    | nil => rfl
    | cons c rest =>
      have line := ends c rfl
      simp [spanIgnored, line, isIgnored_of_isLineEnd line]
  | cons c body ih =>
    rw [List.forall_mem_cons] at inside
    simp [spanIgnored, inside.1, ih inside.2]

theorem IgnoredRun.spanned {rest run : List Char} (h : IgnoredRun rest run)
    (ends : EndsIgnored rest) : spanIgnored false (run ++ rest) = (run, rest) := by
  induction h with
  | nil => exact spanIgnored_of_ends ends
  | char ignored more ih => simp [spanIgnored, ignored, beq_hash_of_isIgnored ignored, ih]
  | comment inside line more ih =>
    have read := spanIgnored_comment inside line
    rw [ih] at read
    have hash : isIgnored '#' = false ∧ isLineEnd '#' = false := by decide
    simp [spanIgnored, hash, read]

theorem IgnoredRun.cons_comment {c : Char} {rest run : List Char} (h : IgnoredRun rest ('#' :: run))
    (inside : isLineEnd c = false) : IgnoredRun rest ('#' :: c :: run) := by
  cases h with
  | char ignored more => exact absurd ignored (by decide)
  | @comment body run all ends more =>
    have longer : ∀ d ∈ c :: body, isLineEnd d = false := by
      rw [List.forall_mem_cons]
      exact ⟨inside, all⟩
    exact .comment longer ends more

/-- What is split off is ignored text; where a comment is open, it is the rest of it. -/
theorem ignoredRun_spanIgnored (comment : Bool) (cs : List Char) :
    EndsIgnored (spanIgnored comment cs).2 ∧
      IgnoredRun (spanIgnored comment cs).2
        ((if comment then ['#'] else []) ++ (spanIgnored comment cs).1) := by
  induction cs generalizing comment with
  | nil =>
    have ends : EndsIgnored [] := by
      intro c first
      cases first
    refine ⟨ends, ?_⟩
    cases comment with
    | false => exact .nil
    | true =>
      refine .comment (List.forall_mem_nil _) ?_ .nil
      intro c first
      cases first
  | cons c rest ih =>
    cases comment with
    | true =>
      by_cases line : isLineEnd c = true
      · have step : spanIgnored true (c :: rest) =
            (c :: (spanIgnored false rest).1, (spanIgnored false rest).2) := by
          simp [spanIgnored, line]
        obtain ⟨ends, run⟩ := ih false
        rw [step]
        refine ⟨ends, .comment (List.forall_mem_nil _) ?_ (.char (isIgnored_of_isLineEnd line) run)⟩
        intro d first
        cases first
        exact line
      · have step : spanIgnored true (c :: rest) =
            (c :: (spanIgnored true rest).1, (spanIgnored true rest).2) := by
          simp [spanIgnored, line]
        obtain ⟨ends, run⟩ := ih true
        rw [step]
        exact ⟨ends, run.cons_comment (Bool.not_eq_true _ ▸ line)⟩
    | false =>
      by_cases ignored : isIgnored c = true
      · have step : spanIgnored false (c :: rest) =
            (c :: (spanIgnored false rest).1, (spanIgnored false rest).2) := by
          simp [spanIgnored, ignored, beq_hash_of_isIgnored ignored]
        obtain ⟨ends, run⟩ := ih false
        rw [step]
        exact ⟨ends, .char ignored run⟩
      by_cases hash : c = '#'
      · subst hash
        exact ih true
      · have ends : EndsIgnored (c :: rest) := by
          intro d first
          cases first
          exact ⟨Bool.not_eq_true _ ▸ ignored, hash⟩
        rw [spanIgnored_of_ends ends]
        exact ⟨ends, .nil⟩

/-! ## Cuts -/

/-- A lexeme and the ignored text in front of it. -/
structure Piece where
  ignored : List Char
  text : List Char
  kind : TokenKind

/-- The text is cut into pieces and ignored text at its end. -/
inductive IsCut : List Char → List Piece → List Char → Prop where
  | finish {trailing : List Char} (ignored : IgnoredRun [] trailing) : IsCut trailing [] trailing
  | piece {piece : Piece} {rest : List Char} {pieces : List Piece} {trailing : List Char}
      (ignored : IgnoredRun (piece.text ++ rest) piece.ignored)
      (lexeme : Lexeme rest piece.text piece.kind) (more : IsCut rest pieces trailing) :
      IsCut (piece.ignored ++ (piece.text ++ rest)) (piece :: pieces) trailing

theorem IsCut.span_nil {cs trailing : List Char} (h : IsCut cs [] trailing) :
    cs = trailing ∧ spanIgnored false cs = (cs, []) := by
  cases h with
  | finish ignored =>
    have spanned := ignored.spanned fun c first => by cases first
    rw [List.append_nil] at spanned
    exact ⟨rfl, spanned⟩

/-- The first piece of a cut is what is split off and scanned first. -/
theorem IsCut.span_cons {cs trailing : List Char} {piece : Piece} {pieces : List Piece}
    (h : IsCut cs (piece :: pieces) trailing) :
    ∃ c tail rest, spanIgnored false cs = (piece.ignored, c :: tail) ∧
      scan c tail = .ok ⟨piece.kind, piece.text, rest⟩ ∧ IsCut rest pieces trailing := by
  cases h with
  | @piece _ rest _ _ ignored lexeme more =>
    obtain ⟨c, tail, shape, -, -, scanned⟩ := lexeme.scansBefore
    have spanned := ignored.spanned (lexeme.endsIgnored rest)
    rw [shape] at spanned
    rw [shape, spanned]
    exact ⟨c, tail ++ rest, rest, rfl, shape ▸ scanned, more⟩

theorem IsCut.unique {cs trailing trailing' : List Char} {pieces pieces' : List Piece}
    (h : IsCut cs pieces trailing) (h' : IsCut cs pieces' trailing') :
    pieces = pieces' ∧ trailing = trailing' := by
  induction pieces generalizing cs pieces' with
  | nil =>
    obtain ⟨rfl, spanned⟩ := h.span_nil
    cases pieces' with
    | nil => exact ⟨rfl, h'.span_nil.1⟩
    | cons piece' pieces' =>
      obtain ⟨c, tail, rest, again, -, -⟩ := h'.span_cons
      cases spanned.symm.trans again
  | cons piece pieces ih =>
    obtain ⟨c, tail, rest, spanned, scanned, more⟩ := h.span_cons
    cases pieces' with
    | nil => cases spanned.symm.trans h'.span_nil.2
    | cons piece' pieces' =>
      obtain ⟨c', tail', rest', again, scanned', more'⟩ := h'.span_cons
      obtain ⟨ignored, same⟩ := Prod.mk.inj (spanned.symm.trans again)
      obtain ⟨rfl, rfl⟩ := List.cons.inj same
      cases piece
      cases piece'
      cases ignored
      cases scanned.symm.trans scanned'
      obtain ⟨rfl, rfl⟩ := ih more more'
      exact ⟨rfl, rfl⟩

/-! ## Texts in pieces -/

/-- The text that pieces make up. -/
def written (pieces : List Piece) : List Char :=
  pieces.flatMap fun piece => piece.ignored ++ piece.text

/-- Pieces are cut off the front of a text, as far as what is left of it. -/
inductive CutsOff (left : List Char) : List Char → List Piece → Prop where
  | nothing : CutsOff left left []
  | piece {piece : Piece} {rest : List Char} {pieces : List Piece}
      (ignored : IgnoredRun (piece.text ++ rest) piece.ignored)
      (lexeme : Lexeme rest piece.text piece.kind) (more : CutsOff left rest pieces) :
      CutsOff left (piece.ignored ++ (piece.text ++ rest)) (piece :: pieces)

theorem written_cons (piece : Piece) (pieces : List Piece) :
    written (piece :: pieces) = piece.ignored ++ piece.text ++ written pieces :=
  List.flatMap_cons

theorem IsCut.cutsOff {cs trailing : List Char} {pieces : List Piece} (h : IsCut cs pieces trailing) :
    CutsOff trailing cs pieces := by
  induction h with
  | finish ignored => exact .nothing
  | piece ignored lexeme more ih => exact .piece ignored lexeme ih

theorem CutsOff.text_eq {cs left : List Char} {pieces : List Piece} (h : CutsOff left cs pieces) :
    cs = written pieces ++ left := by
  induction h with
  | nothing => rfl
  | piece ignored lexeme more ih =>
    rw [ih, written_cons, List.append_assoc, List.append_assoc]

/-- Pieces may be cut off in two goes. -/
theorem CutsOff.split {cs left : List Char} {before after : List Piece}
    (h : CutsOff left cs (before ++ after)) :
    ∃ rest, CutsOff rest cs before ∧ CutsOff left rest after := by
  induction before generalizing cs with
  | nil => exact ⟨cs, .nothing, h⟩
  | cons piece before ih =>
    cases h with
    | piece ignored lexeme more =>
      obtain ⟨rest, front, back⟩ := ih more
      exact ⟨rest, .piece ignored lexeme front, back⟩

/-! ## Tokens -/

/-- The tokens of a cut text that begins at `p`. -/
def placed (p : Position) : List Piece → List Char → List Token
  | [], trailing => [⟨.eof, p.advance trailing⟩]
  | piece :: pieces, trailing =>
    let here := p.advance piece.ignored
    ⟨piece.kind, here⟩ :: placed (here.advance piece.text) pieces trailing

theorem IsCut.tokensFrom_eq {cs trailing : List Char} {pieces : List Piece}
    (h : IsCut cs pieces trailing) (p : Position) :
    tokensFrom p cs = .ok (placed p pieces trailing) := by
  induction pieces generalizing cs p with
  | nil =>
    obtain ⟨rfl, spanned⟩ := h.span_nil
    have last := tokensFrom_finish (congrArg Prod.snd spanned) p
    rw [spanned] at last
    exact last
  | cons piece pieces ih =>
    obtain ⟨c, tail, rest, spanned, scanned, more⟩ := h.span_cons
    have first := tokensFrom_lexeme (congrArg Prod.snd spanned) scanned p
    rw [spanned] at first
    rw [first, ih more]
    rfl

theorem exists_isCut_of_tokensFrom {p : Position} {cs : List Char} {tokens : List Token}
    (h : tokensFrom p cs = .ok tokens) :
    ∃ pieces trailing, IsCut cs pieces trailing ∧ placed p pieces trailing = tokens := by
  fun_induction tokensFrom p cs generalizing tokens with
  | case1 p cs =>
    rename_i shape
    cases h
    obtain ⟨-, run⟩ := ignoredRun_spanIgnored false cs
    have whole := spanIgnored_append false cs
    rw [shape] at run whole
    rw [List.append_nil] at whole
    have last : IsCut cs [] (spanIgnored false cs).1 := by
      rw [whole] at run ⊢
      exact .finish run
    exact ⟨[], _, last, rfl⟩
  | case2 => cases h
  | case3 =>
    rename_i p cs here c rest shape s scanned ih
    cases behind : tokensFrom (here.advance s.text) s.rest with
    | error fault =>
      rw [behind] at h
      cases h
    | ok more =>
      rw [behind] at h
      cases h
      obtain ⟨pieces, trailing, cut, rfl⟩ := ih behind
      obtain ⟨-, run⟩ := ignoredRun_spanIgnored false cs
      have whole := spanIgnored_append false cs
      have lexeme := (scan_append scanned).1
      rw [shape, ← lexeme] at run whole
      have first := @IsCut.piece ⟨(spanIgnored false cs).1, s.text, s.kind⟩ s.rest pieces trailing
        run (lexeme_of_scan scanned) cut
      rw [whole] at first
      exact ⟨_, trailing, first, rfl⟩

end Lexer

open Lexer

/-- A source has tokens exactly if it can be cut by the lexical grammar. There is then one way to
cut it, and the tokens are the lexemes of the cut, each where it stands, and the end. -/
theorem tokenize_iff_cut (source : String) :
    (∀ tokens, tokenize source = .ok tokens ↔
      ∃ pieces trailing, IsCut source.toList pieces trailing ∧
        placed .start pieces trailing = tokens) ∧
      ∀ pieces trailing pieces' trailing', IsCut source.toList pieces trailing →
        IsCut source.toList pieces' trailing' → pieces = pieces' ∧ trailing = trailing' := by
  refine ⟨fun tokens => ⟨exists_isCut_of_tokensFrom, ?_⟩, fun _ _ _ _ => IsCut.unique⟩
  rintro ⟨pieces, trailing, cut, rfl⟩
  exact cut.tokensFrom_eq .start

/-- Nothing but their own ends separates the lexemes of this source. -/
theorem tokenize_adjacent_lexemes :
    tokenize "x\"\\u0041\"-1.5 #c" =
      .ok [⟨.name "x", ⟨1, 1⟩⟩, ⟨.string "A", ⟨1, 2⟩⟩, ⟨.float "-1.5", ⟨1, 10⟩⟩, ⟨.eof, ⟨1, 17⟩⟩] := by
  have digits : HexDigit '0' 0 ∧ HexDigit '4' 4 ∧ HexDigit '1' 1 := ⟨.inl rfl, .inl rfl, .inl rfl⟩
  have quoted : QuotedText ['\\', 'u', '0', '0', '4', '1'] ['A'] :=
    .unicode digits.1 digits.1 digits.2.1 digits.2.2 rfl .nil
  have digit {c : Char} (isDigit : c.isDigit = true) : Digits [c] :=
    ⟨List.cons_ne_nil c [], List.forall_mem_singleton.mpr isDigit⟩
  have spelled : NumberSpelling ['-'] ['1'] ['.', '5'] [] :=
    ⟨.inr rfl, .inr ⟨digit rfl, by decide⟩, .inr ⟨['5'], rfl, digit rfl⟩, .inl rfl⟩
  have trailing : IgnoredRun [] [' ', '#', 'c'] :=
    .char rfl (.comment (List.forall_mem_singleton.mpr rfl) (fun c first => by cases first) .nil)
  have number : Lexeme [' ', '#', 'c'] ['-', '1', '.', '5'] (.float "-1.5") :=
    .float spelled (.inl (by decide)) (by rintro c ⟨⟩; decide)
  have string : Lexeme ['-', '1', '.', '5', ' ', '#', 'c']
      ['"', '\\', 'u', '0', '0', '4', '1', '"'] (.string "A") :=
    .quoted quoted (by decide)
  have name : Lexeme ('"' :: "\\u0041\"-1.5 #c".toList) ['x'] (.name "x") :=
    .name (by decide) (by rintro c ⟨⟩; decide)
  refine ((tokenize_iff_cut _).1 _).mpr ⟨[⟨[], ['x'], .name "x"⟩,
    ⟨[], ['"', '\\', 'u', '0', '0', '4', '1', '"'], .string "A"⟩,
    ⟨[], ['-', '1', '.', '5'], .float "-1.5"⟩], [' ', '#', 'c'], ?_, by decide⟩
  have last := @IsCut.piece ⟨[], _, _⟩ _ _ _ .nil number (.finish trailing)
  exact @IsCut.piece ⟨[], _, _⟩ _ _ _ .nil name (@IsCut.piece ⟨[], _, _⟩ _ _ _ .nil string last)

end SchemaCompiler
