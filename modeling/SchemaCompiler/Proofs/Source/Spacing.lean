import SchemaCompiler.Proofs.Source.Appending

/-!
More ignored text between the lexemes of a source.

Closed ignored text may stand in front of any lexeme and at the end of a source: the lexemes around
it end where they ended, and no comment in it runs on. The source is then cut into the same lexemes.
-/

namespace SchemaCompiler

namespace Lexer

/-! ## Closed ignored text -/

/-- Ignored text each of whose comments is ended by a line end. -/
inductive Closed : List Char → Prop where
  | nil : Closed []
  | char {c : Char} {run : List Char} (ignored : isIgnored c = true) (more : Closed run) :
      Closed (c :: run)
  | comment {body run : List Char} {c : Char} (inside : ∀ d ∈ body, isLineEnd d = false)
      (line : isLineEnd c = true) (more : Closed run) : Closed ('#' :: (body ++ c :: run))

theorem Closed.ignoredRun {run : List Char} (closed : Closed run) (rest : List Char) :
    IgnoredRun rest run := by
  induction closed with
  | nil => exact .nil
  | char ignored more ih => exact .char ignored ih
  | comment inside line more ih =>
    refine .comment inside ?_ (.char (isIgnored_of_isLineEnd line) ih)
    intro d first
    cases first
    exact line

theorem IgnoredRun.congr_head {rest rest' run : List Char} (h : IgnoredRun rest run)
    (same : rest'.head? = rest.head?) : IgnoredRun rest' run := by
  induction h with
  | nil => exact .nil
  | char ignored more ih => exact .char ignored ih
  | @comment body run inside ends more ih =>
    refine .comment inside ?_ ih
    cases run with
    | nil =>
      intro c first
      exact ends c (same.symm.trans first)
    | cons d run => exact ends

/-- In front of a lexeme no comment is open, so closed text may follow the ignored text there. -/
theorem IgnoredRun.closed {rest ignored run : List Char} (h : IgnoredRun rest ignored)
    (nonempty : rest ≠ []) (ends : EndsIgnored rest) (closed : Closed run) :
    IgnoredRun rest (ignored ++ run) := by
  induction h with
  | nil => exact closed.ignoredRun rest
  | char blank more ih => exact .char blank ih
  | @comment body behind inside line more ih =>
    rw [List.cons_append, List.append_assoc]
    refine .comment inside ?_ ih
    cases behind with
    | cons d behind => exact line
    | nil =>
      obtain ⟨c, rest, rfl⟩ := List.exists_cons_of_ne_nil nonempty
      have blank := isIgnored_of_isLineEnd (line c rfl)
      rw [(ends c rfl).1] at blank
      cases blank

/-- Closed text behind an open comment is the rest of it up to a line end. -/
theorem Closed.behind_comment {run : List Char} (closed : Closed run) {body : List Char}
    (inside : ∀ c ∈ body, isLineEnd c = false) : IgnoredRun [] ('#' :: (body ++ run)) := by
  induction closed generalizing body with
  | nil =>
    refine .comment inside ?_ .nil
    intro c first
    cases first
  | @char c run blank more ih =>
    by_cases line : isLineEnd c = true
    · refine .comment inside ?_ (.char blank (more.ignoredRun []))
      intro d first
      cases first
      exact line
    · rw [List.append_cons]
      apply ih
      rw [List.forall_mem_append, List.forall_mem_singleton]
      exact ⟨inside, Bool.not_eq_true _ ▸ line⟩
  | @comment words run c inside' line more ih =>
    have hash : isLineEnd '#' = false := by decide
    have all : ∀ d ∈ body ++ '#' :: words, isLineEnd d = false := by
      rw [List.forall_mem_append, List.forall_mem_cons]
      exact ⟨inside, hash, inside'⟩
    have joined : body ++ '#' :: (words ++ c :: run) = (body ++ '#' :: words) ++ c :: run := by
      rw [List.append_assoc, List.cons_append]
    rw [joined]
    refine .comment all ?_ (.char (isIgnored_of_isLineEnd line) (more.ignoredRun []))
    intro d first
    cases first
    exact line

/-- At the end of a source a comment may be open. -/
theorem IgnoredRun.closed_end {trailing run : List Char} (h : IgnoredRun [] trailing)
    (closed : Closed run) : IgnoredRun [] (trailing ++ run) := by
  induction h with
  | nil => exact closed.ignoredRun []
  | char blank more ih => exact .char blank ih
  | @comment body behind inside line more ih =>
    rw [List.cons_append, List.append_assoc]
    cases behind with
    | nil => exact closed.behind_comment inside
    | cons d behind => exact .comment inside line ih

/-! ## Lexemes in front of other text -/

/-- The second text begins like the first one, or with a character that no lexeme runs into. -/
def Loosened (rest rest' : List Char) : Prop := rest'.head? = rest.head? ∨ Ends rest'

theorem ends_of_isIgnored {c : Char} (ignored : isIgnored c = true) (rest : List Char) :
    Ends (c :: rest) := by
  simp only [isIgnored, Bool.or_eq_true, beq_iff_eq] at ignored
  obtain ((((rfl | rfl) | rfl) | rfl) | rfl) | rfl := ignored <;>
    exact ends_cons (by decide) (by decide) (by decide)

theorem Closed.loosened {run : List Char} (closed : Closed run) {rest rest' : List Char}
    (loosened : Loosened rest rest') : Loosened rest (run ++ rest') := by
  cases closed with
  | nil => exact loosened
  | char ignored more => exact .inr (ends_of_isIgnored ignored _)
  | comment inside line more => exact .inr (ends_cons (by decide) (by decide) (by decide))

theorem Loosened.append (front : List Char) {rest rest' : List Char}
    (loosened : Loosened rest rest') : Loosened (front ++ rest) (front ++ rest') := by
  cases front with
  | nil => exact loosened
  | cons c front => exact .inl rfl

/-- An empty string is told from a block string by the next character. -/
theorem QuotedText.single_iff {text value : List Char} (inside : QuotedText text value)
    (rest : List Char) :
    threeQuotes <+: '"' :: (text ++ '"' :: rest) ↔ text = [] ∧ rest.head? = some '"' := by
  have shape : threeQuotes = ['"', '"', '"'] := rfl
  rw [shape, List.cons_prefix_cons]
  cases inside with
  | nil => cases rest <;> simp [List.cons_prefix_cons, eq_comm]
  | plain quote => simp [List.cons_prefix_cons, Ne.symm quote]
  | escape => simp [List.cons_prefix_cons]
  | unicode => simp [List.cons_prefix_cons]

/-- A lexeme stays one where what follows it is loosened. -/
theorem Lexeme.loosened {rest rest' text : List Char} {kind : TokenKind}
    (h : Lexeme rest text kind) (loosened : Loosened rest rest') : Lexeme rest' text kind := by
  have number (ends : EndsNumber rest) : EndsNumber rest' := by
    obtain same | ends' := loosened
    · rwa [EndsNumber, same]
    · exact ends'.number
  cases h with
  | name spelled ends =>
    refine .name spelled ?_
    obtain same | ends' := loosened
    · rwa [EndsName, same]
    · exact ends'.name
  | int spelled ends => exact .int spelled (number ends)
  | float spelled parts ends => exact .float spelled parts (number ends)
  | @quoted text value inside single =>
    refine .quoted inside ?_
    rw [inside.single_iff] at single ⊢
    rintro ⟨empty, quote⟩
    obtain same | ends' := loosened
    · exact single ⟨empty, same ▸ quote⟩
    · have other := (ends' _ quote).2.2
      exact other rfl
  | block inside => exact .block inside
  | mark mark => exact .mark mark
  | spread => exact .spread

/-! ## Cuts -/

/-- The pieces with a gap more in front of each lexeme. -/
def gapped (gaps : List (List Char)) (pieces : List Piece) : List Piece :=
  List.zipWith (fun gap piece => ⟨piece.ignored ++ gap, piece.text, piece.kind⟩) gaps pieces

theorem map_kind_gapped {gaps : List (List Char)} {pieces : List Piece}
    (many : gaps.length = pieces.length) :
    (gapped gaps pieces).map Piece.kind = pieces.map Piece.kind := by
  induction pieces generalizing gaps with
  | nil =>
    obtain rfl : gaps = [] := List.eq_nil_of_length_eq_zero many
    rfl
  | cons piece pieces ih =>
    obtain ⟨gap, gaps, rfl⟩ := List.exists_cons_of_length_eq_add_one many
    exact congrArg (piece.kind :: ·) (ih (Nat.succ.inj many))

/-- A source with closed text in front of its lexemes and at its end is cut into the same
lexemes. -/
theorem IsCut.spaced {cs trailing last : List Char} {pieces : List Piece}
    {gaps : List (List Char)} (h : IsCut cs pieces trailing) (many : gaps.length = pieces.length)
    (closed : ∀ gap ∈ gaps, Closed gap) (closed_last : Closed last) :
    IsCut (written (gapped gaps pieces) ++ (trailing ++ last)) (gapped gaps pieces)
        (trailing ++ last) ∧
      Loosened cs (written (gapped gaps pieces) ++ (trailing ++ last)) := by
  induction h generalizing gaps with
  | @finish trailing ignored =>
    obtain rfl : gaps = [] := List.eq_nil_of_length_eq_zero many
    refine ⟨.finish (ignored.closed_end closed_last), ?_⟩
    have same : Loosened [] [] := .inl rfl
    have loose := (closed_last.loosened same).append trailing
    rwa [List.append_nil, List.append_nil] at loose
  | @piece piece rest pieces trailing ignored lexeme more ih =>
    obtain ⟨gap, gaps, rfl⟩ := List.exists_cons_of_length_eq_add_one many
    rw [List.forall_mem_cons] at closed
    obtain ⟨closed_gap, closed_gaps⟩ := closed
    obtain ⟨cut, loose⟩ := ih (Nat.succ.inj many) closed_gaps
    generalize behind : written (gapped gaps pieces) ++ (trailing ++ last) = rest' at cut loose
    have text : written (gapped (gap :: gaps) (piece :: pieces)) ++ (trailing ++ last) =
        (piece.ignored ++ gap) ++ (piece.text ++ rest') := by
      rw [← behind]
      simp only [gapped, List.zipWith_cons_cons, written_cons, List.append_assoc]
    rw [text]
    constructor
    · have nonempty : piece.text ++ rest' ≠ [] := by simp [lexeme.text_ne_nil]
      have same : (piece.text ++ rest').head? = (piece.text ++ rest).head? := by
        obtain ⟨c, cs, shape⟩ := List.exists_cons_of_ne_nil lexeme.text_ne_nil
        rw [shape]
        rfl
      have run := ignored.congr_head same
      exact @IsCut.piece ⟨piece.ignored ++ gap, piece.text, piece.kind⟩ rest' _ _
        (run.closed nonempty (lexeme.endsIgnored rest') closed_gap) (lexeme.loosened loose) cut
    · rw [List.append_assoc]
      exact (closed_gap.loosened (loose.append piece.text)).append piece.ignored

end Lexer

end SchemaCompiler
