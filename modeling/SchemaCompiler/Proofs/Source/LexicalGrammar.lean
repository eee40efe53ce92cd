import SchemaCompiler.Proofs.Source.Lexing

/-!
The lexical grammar: what may stand as ignored text, and what as a lexeme in front of which text.

The grammar is stated of the text alone, without a scanner. A lexeme is what the scanner reads: in
front of text that does not run into it a lexeme scans back, and what scans is a lexeme.
-/

namespace SchemaCompiler

namespace Lexer

/-! ## The grammar -/

/-- A hexadecimal digit and its value. -/
def HexDigit (c : Char) (n : Nat) : Prop :=
  "0123456789abcdef".toList[n]? = some c ∨ "0123456789ABCDEF".toList[n]? = some c

/-- The letters that may follow a backslash, and what they stand for. -/
def escapes : List (Char × Char) :=
  [('"', '"'), ('\\', '\\'), ('/', '/'), ('b', '\x08'), ('f', '\x0c'), ('n', '\n'), ('r', '\r'),
   ('t', '\t')]

/-- What may stand between two quotes, and its value. -/
inductive QuotedText : List Char → List Char → Prop where
  | nil : QuotedText [] []
  | plain {c : Char} {text value : List Char} (quote : c ≠ '"') (slash : c ≠ '\\')
      (feed : c ≠ '\n') (carriage : c ≠ '\r') (more : QuotedText text value) :
      QuotedText (c :: text) (c :: value)
  | escape {c v : Char} {text value : List Char} (known : (c, v) ∈ escapes)
      (more : QuotedText text value) : QuotedText ('\\' :: c :: text) (v :: value)
  | unicode {a b c d v : Char} {i j k l : Nat} {text value : List Char} (first : HexDigit a i)
      (second : HexDigit b j) (third : HexDigit c k) (fourth : HexDigit d l)
      (point : v.toNat = ((i * 16 + j) * 16 + k) * 16 + l) (more : QuotedText text value) :
      QuotedText ('\\' :: 'u' :: a :: b :: c :: d :: text) (v :: value)

/-- What may stand behind three quotes, up to the next three that no backslash escapes, and its
raw content. -/
inductive BlockText : List Char → List Char → Prop where
  | close : BlockText threeQuotes []
  | escape {text raw : List Char} (more : BlockText text raw) :
      BlockText ('\\' :: (threeQuotes ++ text)) (threeQuotes ++ raw)
  | plain {c : Char} {text raw : List Char} (closed : ¬ threeQuotes <+: c :: text)
      (escaped : ¬ '\\' :: threeQuotes <+: c :: text) (more : BlockText text raw) :
      BlockText (c :: text) (c :: raw)

/-- A text that may stand as one lexeme of a kind in front of the rest. -/
inductive Lexeme (rest : List Char) : List Char → TokenKind → Prop where
  | name {text : List Char} (spelled : NameSpelling text) (ends : EndsName rest) :
      Lexeme rest text (.name (String.ofList text))
  | int {sign whole : List Char} (spelled : NumberSpelling sign whole [] [])
      (ends : EndsNumber rest) :
      Lexeme rest (sign ++ whole) (.int (String.ofList (sign ++ whole)))
  | float {sign whole fraction exponent : List Char}
      (spelled : NumberSpelling sign whole fraction exponent)
      (parts : fraction ≠ [] ∨ exponent ≠ []) (ends : EndsNumber rest) :
      Lexeme rest (sign ++ whole ++ fraction ++ exponent)
        (.float (String.ofList (sign ++ whole ++ fraction ++ exponent)))
  | quoted {text value : List Char} (inside : QuotedText text value)
      (single : ¬ threeQuotes <+: '"' :: (text ++ '"' :: rest)) :
      Lexeme rest ('"' :: (text ++ ['"'])) (.string (String.ofList value))
  | block {text raw : List Char} (inside : BlockText text raw) :
      Lexeme rest (threeQuotes ++ text) (.string (String.ofList (BlockString.value raw)))
  | mark (mark : Punctuator) : Lexeme rest [mark.char] (.punct mark)
  | spread : Lexeme rest ['.', '.', '.'] .spread

/-- A text that may stand as ignored text in front of the rest. A comment reaches up to a line end
or to the end of the source. -/
inductive IgnoredRun (rest : List Char) : List Char → Prop where
  | nil : IgnoredRun rest []
  | char {c : Char} {run : List Char} (ignored : isIgnored c = true) (more : IgnoredRun rest run) :
      IgnoredRun rest (c :: run)
  | comment {body run : List Char} (inside : ∀ c ∈ body, isLineEnd c = false)
      (ends : ∀ c, (run ++ rest).head? = some c → isLineEnd c = true)
      (more : IgnoredRun rest run) : IgnoredRun rest ('#' :: (body ++ run))

/-! ## Escapes -/

theorem hexDigit_of_hexValue? {c : Char} {n : Nat} (h : hexValue? c = some n) : HexDigit c n := by
  have digits : ∀ m < 10, "0123456789abcdef".toList[m]? = some (Char.ofNat (48 + m)) := by decide
  have lower : ∀ m < 6, "0123456789abcdef".toList[m + 10]? = some (Char.ofNat (97 + m)) := by decide
  have upper : ∀ m < 6, "0123456789ABCDEF".toList[m + 10]? = some (Char.ofNat (65 + m)) := by decide
  have whole (low : Nat) (from_low : low ≤ c.toNat) : Char.ofNat (low + (c.toNat - low)) = c := by
    rw [Nat.add_sub_cancel' from_low, Char.ofNat_toNat]
  unfold hexValue? at h
  split at h
  · next digit =>
    cases h
    obtain ⟨low, high⟩ := Text.isDigit_bounds digit
    have here := digits (c.toNat - 48) (by omega)
    rw [whole 48 low] at here
    exact .inl here
  split at h
  · next letter =>
    cases h
    have low : 97 ≤ c.toNat := letter.1
    have high : c.toNat ≤ 102 := letter.2
    have here := lower (c.toNat - 97) (by omega)
    rw [whole 97 low] at here
    exact .inl here
  split at h
  · next letter =>
    cases h
    have low : 65 ≤ c.toNat := letter.1
    have high : c.toNat ≤ 70 := letter.2
    have here := upper (c.toNat - 65) (by omega)
    rw [whole 65 low] at here
    exact .inr here
  · cases h

theorem hexValue?_of_hexDigit {c : Char} {n : Nat} (h : HexDigit c n) : hexValue? c = some n := by
  have values : ∀ m < 16, ("0123456789abcdef".toList[m]?.bind hexValue?) = some m ∧
      ("0123456789ABCDEF".toList[m]?.bind hexValue?) = some m := by decide
  have small : n < 16 := by
    rcases h with h | h
    · exact (List.getElem?_eq_some_iff.mp h).1
    · exact (List.getElem?_eq_some_iff.mp h).1
  have value := values n small
  rcases h with h | h
  · rw [h] at value
    exact value.1
  · rw [h] at value
    exact value.2

theorem hexValue?_eq_some_iff {c : Char} {n : Nat} : hexValue? c = some n ↔ HexDigit c n :=
  ⟨hexDigit_of_hexValue?, hexValue?_of_hexDigit⟩

theorem unicodeEscape?_eq_some_iff {a b c d v : Char} :
    unicodeEscape? a b c d = some v ↔ ∃ i j k l, HexDigit a i ∧ HexDigit b j ∧ HexDigit c k ∧
      HexDigit d l ∧ v.toNat = ((i * 16 + j) * 16 + k) * 16 + l := by
  have point (n : Nat) :
      (if n.isValidChar then some (Char.ofNat n) else none) = some v ↔ v.toNat = n := by
    constructor
    · intro h
      split at h
      · next valid =>
        cases h
        rw [Char.ofNat, dif_pos valid]
        rfl
      · cases h
    · rintro rfl
      have valid : v.toNat.isValidChar := v.valid
      rw [if_pos valid, Char.ofNat_toNat]
  simp only [unicodeEscape?, bind, Option.bind_eq_some_iff, hexValue?_eq_some_iff, point]
  constructor
  · rintro ⟨i, first, j, second, k, third, l, fourth, same⟩
    exact ⟨i, j, k, l, first, second, third, fourth, same⟩
  · rintro ⟨i, j, k, l, first, second, third, fourth, same⟩
    exact ⟨i, first, j, second, k, third, l, fourth, same⟩

theorem simpleEscape?_eq_some_iff {c v : Char} : simpleEscape? c = some v ↔ (c, v) ∈ escapes := by
  constructor
  · intro h
    unfold simpleEscape? at h
    split at h
    case h_9 => cases h
    all_goals
      cases h
      decide
  · intro h
    simp only [escapes, List.mem_cons, Prod.mk.injEq, List.not_mem_nil, or_false] at h
    rcases h with ⟨rfl, rfl⟩ | ⟨rfl, rfl⟩ | ⟨rfl, rfl⟩ | ⟨rfl, rfl⟩ | ⟨rfl, rfl⟩ | ⟨rfl, rfl⟩ |
      ⟨rfl, rfl⟩ | ⟨rfl, rfl⟩ <;> rfl

/-! ## Quoted strings -/

theorem quotedBody_of_quotedText {text value : List Char} (h : QuotedText text value)
    (rest : List Char) :
    quotedBody (text ++ '"' :: rest) = .ok ⟨value, text ++ ['"'], rest⟩ := by
  induction h with
  | nil => rfl
  | @plain c text value quote slash feed carriage more ih =>
    have inside : isLineEnd c = false := by simp [isLineEnd, feed, carriage]
    simp [quotedBody, slash, inside, ih, Quoted.push]
  | @escape c v text value known more ih =>
    have simple := simpleEscape?_eq_some_iff.mpr known
    have other : c ≠ 'u' := by
      rintro rfl
      cases simple
    simp [quotedBody, other, simple, ih, Quoted.push]
  | unicode first second third fourth point more ih =>
    have escape := unicodeEscape?_eq_some_iff.mpr ⟨_, _, _, _, first, second, third, fourth, point⟩
    simp [quotedBody, escape, ih, Quoted.push]

/-- Where neither an escape nor a lone backslash begins, there is no backslash. -/
theorem ne_slash {c : Char} {rest : List Char}
    (escape : ∀ d tail, c = '\\' → rest = d :: tail → False) (alone : c = '\\' → rest = [] → False) :
    c ≠ '\\' := by
  rintro rfl
  cases rest with
  | nil => exact alone rfl rfl
  | cons d tail => exact escape d tail rfl rfl

theorem quotedText_of_quotedBody {cs : List Char} {q : Quoted} (h : quotedBody cs = .ok q) :
    ∃ text, q.text = text ++ ['"'] ∧ QuotedText text q.value := by
  fun_induction quotedBody cs generalizing q with
  | case1 => cases h
  | case2 rest =>
    cases h
    exact ⟨[], rfl, .nil⟩
  | case3 a b c d rest v known ih =>
    obtain ⟨inner, read, rfl⟩ := push_eq_ok h
    obtain ⟨text, shape, more⟩ := ih read
    obtain ⟨i, j, k, l, first, second, third, fourth, point⟩ := unicodeEscape?_eq_some_iff.mp known
    refine ⟨'\\' :: 'u' :: a :: b :: c :: d :: text, ?_,
      .unicode first second third fourth point more⟩
    simp only [shape, List.cons_append, List.nil_append]
  | case4 => cases h
  | case5 => cases h
  | case6 c rest _ _ v known ih =>
    obtain ⟨inner, read, rfl⟩ := push_eq_ok h
    obtain ⟨text, shape, more⟩ := ih read
    refine ⟨'\\' :: c :: text, ?_, .escape (simpleEscape?_eq_some_iff.mp known) more⟩
    simp only [shape, List.cons_append, List.nil_append]
  | case7 => cases h
  | case8 => cases h
  | case9 => cases h
  | case10 c rest quote unicode short other last inside ih =>
    obtain ⟨inner, read, rfl⟩ := push_eq_ok h
    obtain ⟨text, shape, more⟩ := ih read
    have slash := ne_slash other last
    rw [isLineEnd, Bool.or_eq_true, beq_iff_eq, beq_iff_eq, not_or] at inside
    refine ⟨c :: text, ?_, .plain quote slash inside.1 inside.2 more⟩
    simp only [shape, List.cons_append, List.nil_append]

/-! ## Block strings -/

theorem BlockText.three_le_length {text raw : List Char} (h : BlockText text raw) :
    3 ≤ text.length := by
  cases h with
  | close => exact Nat.le_refl 3
  | escape more => simp [threeQuotes]
  | plain _ _ more => exact Nat.le_succ_of_le more.three_le_length

/-- Whether a block text begins with given characters does not depend on what follows it. -/
theorem prefix_append_iff {front text : List Char} (short : front.length ≤ text.length)
    (rest : List Char) : front <+: text ++ rest ↔ front <+: text := by
  constructor
  · intro h
    exact List.prefix_of_prefix_length_le h (List.prefix_append text rest) short
  · intro h
    exact h.trans (List.prefix_append text rest)

theorem blockBody_of_blockText {text raw : List Char} (h : BlockText text raw) (rest : List Char) :
    blockBody (text ++ rest) = some ⟨raw, text, rest⟩ := by
  induction h with
  | close => rfl
  | @escape text raw more ih => simp [blockBody, threeQuotes, ih]
  | @plain c text raw closed escaped more ih =>
    have long := more.three_le_length
    have not_closed : ∀ tail, c :: (text ++ rest) ≠ '"' :: '"' :: '"' :: tail := by
      intro tail shape
      have short : threeQuotes.length ≤ (c :: text).length := Nat.le_succ_of_le long
      have here : threeQuotes <+: (c :: text) ++ rest := ⟨tail, shape.symm⟩
      exact closed ((prefix_append_iff short rest).mp here)
    have not_escaped : ∀ tail, c :: (text ++ rest) ≠ '\\' :: '"' :: '"' :: '"' :: tail := by
      intro tail shape
      have short : ('\\' :: threeQuotes).length ≤ (c :: text).length := Nat.succ_le_succ long
      have here : '\\' :: threeQuotes <+: (c :: text) ++ rest := ⟨tail, shape.symm⟩
      exact escaped ((prefix_append_iff short rest).mp here)
    rw [List.cons_append]
    unfold blockBody
    split
    · next shape => cases shape
    · next shape => exact absurd shape (not_closed _)
    · next shape => exact absurd shape (not_escaped _)
    · next shape =>
      cases shape
      rw [ih]
      rfl

theorem blockText_of_blockBody {cs : List Char} {q : Quoted} (h : blockBody cs = some q) :
    BlockText q.text q.value := by
  fun_induction blockBody cs generalizing q with
  | case1 => cases h
  | case2 rest =>
    cases h
    exact .close
  | case3 rest ih =>
    obtain ⟨inner, read, rfl⟩ := Option.map_eq_some_iff.mp h
    exact .escape (ih read)
  | case4 c rest close escape ih =>
    obtain ⟨inner, read, rfl⟩ := Option.map_eq_some_iff.mp h
    have whole : inner.text ++ inner.rest = rest := blockBody_append read
    refine .plain ?_ ?_ (ih read)
    · rintro ⟨tail, shape⟩
      obtain ⟨rfl, inside⟩ := List.cons.inj shape
      refine close (tail ++ inner.rest) rfl ?_
      rw [← whole, ← inside]
      rfl
    · rintro ⟨tail, shape⟩
      obtain ⟨rfl, inside⟩ := List.cons.inj shape
      refine escape (tail ++ inner.rest) rfl ?_
      rw [← whole, ← inside]
      rfl

/-! ## Lexemes -/

theorem Lexeme.scansBefore {rest text : List Char} {kind : TokenKind} (h : Lexeme rest text kind) :
    ScansBefore rest text kind := by
  cases h with
  | name spelled ends => exact scansBefore_name spelled ends
  | int spelled ends => simpa using scansBefore_number spelled ends
  | @float sign whole fraction exponent spelled parts ends =>
    have marked : (fraction.isEmpty && exponent.isEmpty) = false := by
      rw [Bool.and_eq_false_iff, List.isEmpty_eq_false_iff, List.isEmpty_eq_false_iff]
      exact parts
    simpa [marked] using scansBefore_number spelled ends
  | @quoted text value inside single =>
    apply scansBefore_string
    rw [List.append_assoc]
    exact string_of_quotedBody (quotedBody_of_quotedText inside rest) single
  | @block text raw inside =>
    have read := blockBody_of_blockText inside rest
    apply scansBefore_string
    change string ('"' :: '"' :: '"' :: (text ++ rest)) = _
    simp only [string, read]
    rfl
  | mark mark =>
    have kept : isIgnored mark.char = false ∧ mark.char ≠ '#' := by
      cases mark <;> decide
    refine ⟨mark.char, [], rfl, kept.1, kept.2, ?_⟩
    unfold scan
    rw [ofChar?_char]
    rfl
  | spread => exact ⟨'.', ['.', '.'], rfl, by decide, by decide, rfl⟩

theorem lexeme_of_string {cs : List Char} {s : Scan} (h : string ('"' :: cs) = .ok s) :
    Lexeme s.rest s.text s.kind := by
  unfold string at h
  split at h
  · next tail shape =>
    split at h
    · next q read =>
      cases h
      exact .block (blockText_of_blockBody read)
    · cases h
  · next single =>
    split at h
    · next q read =>
      cases h
      obtain ⟨text, shape, inside⟩ := quotedText_of_quotedBody read
      have whole : text ++ '"' :: q.rest = cs := by
        have parts := quotedBody_append read
        rw [shape, List.append_assoc] at parts
        exact parts
      simp only [shape]
      refine .quoted inside ?_
      rintro ⟨tail, block⟩
      rw [whole] at block
      exact single tail block.symm
    · cases h
    · cases h

theorem lexeme_of_number {cs : List Char} {s : Scan} (h : number cs = .ok s) :
    Lexeme s.rest s.text s.kind := by
  obtain ⟨sign, whole, fraction, exponent, spelled, text, kind, ends⟩ := number_spelling h
  rw [kind, text]
  by_cases plain : (fraction.isEmpty && exponent.isEmpty) = true
  · rw [if_pos plain]
    rw [Bool.and_eq_true, List.isEmpty_iff, List.isEmpty_iff] at plain
    obtain ⟨rfl, rfl⟩ := plain
    rw [List.append_nil, List.append_nil]
    exact .int spelled ends
  · rw [if_neg plain]
    rw [Bool.and_eq_true, List.isEmpty_iff, List.isEmpty_iff] at plain
    exact .float spelled (Decidable.not_and_iff_not_or_not.mp plain) ends

theorem lexeme_of_name {c : Char} {cs : List Char} (start : isNameStart c = true) :
    Lexeme (cs.dropWhile isNameContinue) (c :: cs.takeWhile isNameContinue)
      (.name (String.ofList (c :: cs.takeWhile isNameContinue))) := by
  have continues : ∀ d ∈ cs.takeWhile isNameContinue, isNameContinue d = true :=
    fun d member => List.all_eq_true.mp List.all_takeWhile d member
  refine .name ⟨start, continues⟩ ?_
  intro d first
  have stops := List.head?_dropWhile_not isNameContinue cs
  rw [first] at stops
  exact stops

theorem lexeme_of_scan {c : Char} {cs : List Char} {s : Scan} (h : scan c cs = .ok s) :
    Lexeme s.rest s.text s.kind := by
  unfold scan at h
  split at h
  · next mark known =>
    cases h
    rw [Punctuator.ofChar?] at known
    have same := List.find?_some known
    rw [beq_iff_eq] at same
    rw [← same]
    exact .mark mark
  split at h
  · split at h
    · cases h
      exact .spread
    · cases h
  split at h
  · next quote =>
    subst quote
    exact lexeme_of_string h
  split at h
  · cases read : number (c :: cs) with
    | error fault =>
      rw [read] at h
      cases h
    | ok inner =>
      rw [read] at h
      cases h
      exact lexeme_of_number read
  split at h
  · next start =>
    cases h
    exact lexeme_of_name start
  · cases h

end Lexer

end SchemaCompiler
