import SchemaCompiler.Token
import SchemaCompiler.Token.BlockString
import SchemaCompiler.Text.Quoted

/-!
From source text to tokens.

A source is ignored text and lexemes in turn. Each scanner below takes the text from its first
character on and answers with what it read and with what is left, so that the lexemes and the
ignored text between them make up the source.
-/

namespace SchemaCompiler

/-- Why a source has no tokens. -/
inductive LexicalFault where
  | unexpectedChar (c : Char)
  | loneDot
  | leadingZero
  | missingDigit
  | missingFraction
  | missingExponent
  | numberFollowedBy (c : Char)
  | unterminatedString
  | unterminatedBlockString
  | invalidEscape (c : Option Char)
  | invalidUnicodeEscape
deriving DecidableEq, Repr

def LexicalFault.message : LexicalFault → String
  | unexpectedChar c => "unexpected character " ++ Text.quoteChar c
  | loneDot => "unexpected character '.'"
  | leadingZero => "invalid number: leading zero"
  | missingDigit => "invalid number: expected digit"
  | missingFraction => "invalid number: expected digit after '.'"
  | missingExponent => "invalid number: expected exponent digits"
  | numberFollowedBy c => "invalid number: unexpected character " ++ Text.quoteChar c
  | unterminatedString => "unterminated string"
  | unterminatedBlockString => "unterminated block string"
  | invalidEscape c => "invalid escape sequence " ++ Text.quoteOptionalChar c
  | invalidUnicodeEscape => "invalid unicode escape"

namespace Lexer

def isNameStart (c : Char) : Bool := c == '_' || c.isAlpha

def isNameContinue (c : Char) : Bool := c == '_' || c.isAlphanum

/-- Blanks, commas, line ends and the byte order mark separate tokens and mean nothing. -/
def isIgnored (c : Char) : Bool :=
  c == ' ' || c == '\t' || c == ',' || c == '\n' || c == '\r' || c == '\uFEFF'

def isLineEnd (c : Char) : Bool := c == '\n' || c == '\r'

/-! ## Ignored text -/

/-- Splits off the ignored text at the front; `comment` tells whether a comment is open. -/
def spanIgnored (comment : Bool) : List Char → List Char × List Char
  | [] => ([], [])
  | c :: rest =>
    if comment || isIgnored c || c == '#' then
      let after := spanIgnored (!isLineEnd c && (comment || c == '#')) rest
      (c :: after.1, after.2)
    else ([], c :: rest)

/-! ## Lexemes -/

/-- A lexeme at the front of a text: what it is, how it is written and what follows. -/
structure Scan where
  kind : TokenKind
  text : List Char
  rest : List Char

/-- A fault and the text in front of the place it points at. -/
structure Stop where
  before : List Char
  fault : LexicalFault

def stop (fault : LexicalFault) : Except Stop Scan := .error ⟨[], fault⟩

/-- An optional sign; a missing one is empty. -/
def spanSign (isSign : Char → Bool) : List Char → List Char × List Char
  | c :: rest => if isSign c then ([c], rest) else ([], c :: rest)
  | [] => ([], [])

/-- The digits before a fraction: a single zero, or digits that begin with another. -/
def integerPart (cs : List Char) : Except LexicalFault (List Char × List Char) :=
  match cs with
  | '0' :: rest =>
    if rest.head?.any Char.isDigit then .error .leadingZero else .ok (['0'], rest)
  | _ =>
    if (cs.takeWhile Char.isDigit).isEmpty then .error .missingDigit
    else .ok (cs.takeWhile Char.isDigit, cs.dropWhile Char.isDigit)

/-- A dot with digits behind it, or nothing. -/
def fractionPart (cs : List Char) : Except LexicalFault (List Char × List Char) :=
  match cs with
  | '.' :: rest =>
    if (rest.takeWhile Char.isDigit).isEmpty then .error .missingFraction
    else .ok ('.' :: rest.takeWhile Char.isDigit, rest.dropWhile Char.isDigit)
  | _ => .ok ([], cs)

/-- The letter `e` with an optional sign and digits behind it, or nothing. -/
def exponentPart (cs : List Char) : Except LexicalFault (List Char × List Char) :=
  match cs with
  | e :: rest =>
    if e = 'e' ∨ e = 'E' then
      let (sign, rest) := spanSign (fun c => c == '+' || c == '-') rest
      if (rest.takeWhile Char.isDigit).isEmpty then .error .missingExponent
      else .ok (e :: (sign ++ rest.takeWhile Char.isDigit), rest.dropWhile Char.isDigit)
    else .ok ([], cs)
  | [] => .ok ([], cs)

/-- A number may not run into a dot or a name. -/
def checkNumberEnd (rest : List Char) : Except LexicalFault Unit :=
  match rest with
  | c :: _ => if c = '.' ∨ isNameStart c then .error (.numberFollowedBy c) else .ok ()
  | [] => .ok ()

def number (cs : List Char) : Except LexicalFault Scan := do
  let (sign, rest) := spanSign (· == '-') cs
  let (digits, rest) ← integerPart rest
  let (fraction, rest) ← fractionPart rest
  let (exponent, rest) ← exponentPart rest
  checkNumberEnd rest
  let text := sign ++ digits ++ fraction ++ exponent
  let kind := if fraction.isEmpty && exponent.isEmpty then TokenKind.int else TokenKind.float
  return ⟨kind (String.ofList text), text, rest⟩

/-- What a backslash and one letter stand for. -/
def simpleEscape? : Char → Option Char
  | '"' => some '"'
  | '\\' => some '\\'
  | '/' => some '/'
  | 'b' => some '\x08'
  | 'f' => some '\x0c'
  | 'n' => some '\n'
  | 'r' => some '\r'
  | 't' => some '\t'
  | _ => none

def hexValue? (c : Char) : Option Nat :=
  if c.isDigit then some (c.toNat - '0'.toNat)
  else if 'a' ≤ c ∧ c ≤ 'f' then some (c.toNat - 'a'.toNat + 10)
  else if 'A' ≤ c ∧ c ≤ 'F' then some (c.toNat - 'A'.toNat + 10)
  else none

/-- The character with the code point that four hexadecimal digits give. -/
def unicodeEscape? (a b c d : Char) : Option Char := do
  let n := (((← hexValue? a) * 16 + (← hexValue? b)) * 16 + (← hexValue? c)) * 16 + (← hexValue? d)
  if n.isValidChar then some (Char.ofNat n) else none

/-- A quoted string behind its opening quote: value, text with the closing quote, rest. -/
structure Quoted where
  value : List Char
  text : List Char
  rest : List Char

def Quoted.push (value : Char) (text : List Char) : Except Stop Quoted → Except Stop Quoted
  | .ok q => .ok ⟨value :: q.value, text ++ q.text, q.rest⟩
  | .error s => .error ⟨text ++ s.before, s.fault⟩

/-- Reads up to the closing quote, which has to stand on the same line. -/
def quotedBody : List Char → Except Stop Quoted
  | [] => .error ⟨[], .unterminatedString⟩
  | '"' :: rest => .ok ⟨[], ['"'], rest⟩
  | '\\' :: 'u' :: a :: b :: c :: d :: rest =>
    match unicodeEscape? a b c d with
    | some v => Quoted.push v ['\\', 'u', a, b, c, d] (quotedBody rest)
    | none => .error ⟨[], .invalidUnicodeEscape⟩
  | '\\' :: 'u' :: _ => .error ⟨[], .invalidUnicodeEscape⟩
  | '\\' :: c :: rest =>
    match simpleEscape? c with
    | some v => Quoted.push v ['\\', c] (quotedBody rest)
    | none => .error ⟨[], .invalidEscape c⟩
  | ['\\'] => .error ⟨[], .invalidEscape none⟩
  | c :: rest =>
    if isLineEnd c then .error ⟨[], .unterminatedString⟩ else Quoted.push c [c] (quotedBody rest)

/-- A block string behind its opening quotes: raw content, text with the closing quotes, rest. -/
def blockBody : List Char → Option Quoted
  | [] => none
  | '"' :: '"' :: '"' :: rest => some ⟨[], ['"', '"', '"'], rest⟩
  | '\\' :: '"' :: '"' :: '"' :: rest =>
    (blockBody rest).map fun q =>
      ⟨'"' :: '"' :: '"' :: q.value, '\\' :: '"' :: '"' :: '"' :: q.text, q.rest⟩
  | c :: rest => (blockBody rest).map fun q => ⟨c :: q.value, c :: q.text, q.rest⟩

/-- A fault in an escape points at its backslash, a missing end at the opening quotes. -/
def string (cs : List Char) : Except Stop Scan :=
  match cs with
  | '"' :: '"' :: '"' :: rest =>
    match blockBody rest with
    | some q =>
      .ok ⟨.string (String.ofList (BlockString.value q.value)), '"' :: '"' :: '"' :: q.text, q.rest⟩
    | none => stop .unterminatedBlockString
  | _ =>
    match quotedBody cs.tail with
    | .ok q => .ok ⟨.string (String.ofList q.value), '"' :: q.text, q.rest⟩
    | .error ⟨_, .unterminatedString⟩ => stop .unterminatedString
    | .error s => .error ⟨'"' :: s.before, s.fault⟩

/-- The lexeme that begins with `c`. -/
def scan (c : Char) (rest : List Char) : Except Stop Scan :=
  match Punctuator.ofChar? c with
  | some mark => .ok ⟨.punct mark, [c], rest⟩
  | none =>
    if c = '.' then
      match rest with
      | '.' :: '.' :: rest => .ok ⟨.spread, ['.', '.', '.'], rest⟩
      | _ => stop .loneDot
    else if c = '"' then string (c :: rest)
    else if c = '-' ∨ c.isDigit then (number (c :: rest)).mapError (⟨[], ·⟩)
    else if isNameStart c then
      let name := c :: rest.takeWhile isNameContinue
      .ok ⟨.name (String.ofList name), name, rest.dropWhile isNameContinue⟩
    else stop (.unexpectedChar c)

/-! ## Nothing is lost

What a scanner reads and what it leaves make up the text it was given. -/

theorem spanIgnored_append (comment : Bool) (cs : List Char) :
    (spanIgnored comment cs).1 ++ (spanIgnored comment cs).2 = cs := by
  fun_induction spanIgnored comment cs with
  | case1 => rfl
  | case2 comment c rest h after ih => exact congrArg (c :: ·) ih
  | case3 => rfl

theorem spanSign_append (p : Char → Bool) (cs : List Char) :
    (spanSign p cs).1 ++ (spanSign p cs).2 = cs := by
  cases cs with
  | nil => rfl
  | cons c rest => by_cases h : p c <;> simp [spanSign, h]

theorem integerPart_append {cs digits rest : List Char} (h : integerPart cs = .ok (digits, rest)) :
    digits ++ rest = cs ∧ digits ≠ [] := by
  unfold integerPart at h
  split at h
  · split at h
    · cases h
    · cases h
      exact ⟨rfl, by simp⟩
  · split at h
    · cases h
    · next hne =>
      cases h
      exact ⟨List.takeWhile_append_dropWhile, by simpa using hne⟩

theorem fractionPart_append {cs fraction rest : List Char}
    (h : fractionPart cs = .ok (fraction, rest)) : fraction ++ rest = cs := by
  unfold fractionPart at h
  split at h
  · split at h
    · cases h
    · cases h
      exact congrArg ('.' :: ·) (List.takeWhile_append_dropWhile)
  · cases h
    rfl

theorem exponentPart_append {cs text rest : List Char}
    (h : exponentPart cs = .ok (text, rest)) : text ++ rest = cs := by
  unfold exponentPart at h
  split at h
  · next e tail =>
    split at h
    · simp only at h
      split at h
      · cases h
      · cases h
        have sign := spanSign_append (fun c => c == '+' || c == '-') tail
        rw [List.cons_append, List.append_assoc, List.takeWhile_append_dropWhile, sign]
    · cases h
      rfl
  · cases h
    rfl

theorem number_append {cs : List Char} {s : Scan} (h : number cs = .ok s) :
    s.text ++ s.rest = cs ∧ s.text ≠ [] := by
  unfold number at h
  simp only [bind, Except.bind] at h
  split at h
  · cases h
  next digits hDigits =>
  split at h
  · cases h
  next fraction hFraction =>
  split at h
  · cases h
  next exponent hExponent =>
  split at h
  · cases h
  next hEnd =>
  cases h
  have sign := spanSign_append (· == '-') cs
  have digits := integerPart_append hDigits
  have fraction := fractionPart_append hFraction
  have exponent := exponentPart_append hExponent
  refine ⟨?_, by simp [digits.2]⟩
  simp only [List.append_assoc]
  rw [exponent, fraction, digits.1, sign]

theorem push_eq_ok {v : Char} {text : List Char} {r : Except Stop Quoted} {q : Quoted}
    (h : Quoted.push v text r = .ok q) :
    ∃ inner, r = .ok inner ∧ q = ⟨v :: inner.value, text ++ inner.text, inner.rest⟩ := by
  cases r with
  | error s => cases h
  | ok inner =>
    cases h
    exact ⟨inner, rfl, rfl⟩

theorem quotedBody_append {cs : List Char} {q : Quoted} (h : quotedBody cs = .ok q) :
    q.text ++ q.rest = cs := by
  fun_induction quotedBody cs generalizing q with
  | case1 => cases h
  | case2 rest => cases h; rfl
  | case3 a b c d rest v hv ih =>
    obtain ⟨inner, hr, rfl⟩ := push_eq_ok h
    simp [ih hr]
  | case4 => cases h
  | case5 => cases h
  | case6 c rest _ _ v hv ih =>
    obtain ⟨inner, hr, rfl⟩ := push_eq_ok h
    simp [ih hr]
  | case7 => cases h
  | case8 => cases h
  | case9 => cases h
  | case10 c rest _ _ _ _ _ _ ih =>
    obtain ⟨inner, hr, rfl⟩ := push_eq_ok h
    simp [ih hr]

theorem blockBody_append {cs : List Char} {q : Quoted} (h : blockBody cs = some q) :
    q.text ++ q.rest = cs := by
  fun_induction blockBody cs generalizing q with
  | case1 => cases h
  | case2 rest => cases h; rfl
  | case3 rest ih =>
    obtain ⟨inner, hr, rfl⟩ := Option.map_eq_some_iff.1 h
    simp [ih hr]
  | case4 c rest _ _ ih =>
    obtain ⟨inner, hr, rfl⟩ := Option.map_eq_some_iff.1 h
    simp [ih hr]

theorem string_append {rest : List Char} {s : Scan} (h : string ('"' :: rest) = .ok s) :
    s.text ++ s.rest = '"' :: rest ∧ s.text ≠ [] := by
  unfold string at h
  split at h
  · next hcs =>
    split at h
    · next q hq =>
      cases h
      cases hcs
      exact ⟨by simp [blockBody_append hq], by simp⟩
    · cases h
  · split at h
    · next q hq =>
      cases h
      exact ⟨congrArg ('"' :: ·) (quotedBody_append hq), by simp⟩
    · cases h
    · cases h

theorem scan_append {c : Char} {rest : List Char} {s : Scan} (h : scan c rest = .ok s) :
    s.text ++ s.rest = c :: rest ∧ s.text ≠ [] := by
  unfold scan at h
  split at h
  · cases h
    exact ⟨rfl, by simp⟩
  split at h
  · next hc =>
    split at h
    · cases h
      exact ⟨by simp [hc], by simp⟩
    · cases h
  split at h
  · next hc =>
    subst hc
    exact string_append h
  split at h
  · cases hn : number (c :: rest) with
    | error fault =>
      rw [hn] at h
      cases h
    | ok inner =>
      rw [hn] at h
      cases h
      exact number_append hn
  split at h
  · cases h
    exact ⟨congrArg (c :: ·) (List.takeWhile_append_dropWhile), by simp⟩
  · cases h

/-! ## Tokens -/

/-- The tokens of `cs`, which begins at `p`; the last one is the end of the source. -/
def tokensFrom (p : Position) (cs : List Char) : Except (Position × LexicalFault) (List Token) :=
  let here := p.advance (spanIgnored false cs).1
  match _hcs : (spanIgnored false cs).2 with
  | [] => .ok [⟨.eof, here⟩]
  | c :: rest =>
    match _hs : scan c rest with
    | .error s => .error (here.advance s.before, s.fault)
    | .ok s => do
      let tokens ← tokensFrom (here.advance s.text) s.rest
      return ⟨s.kind, here⟩ :: tokens
termination_by cs.length
decreasing_by
  have whole := congrArg List.length (spanIgnored_append false cs)
  have lexeme := congrArg List.length (scan_append _hs).1
  have nonempty := List.length_pos_iff.2 (scan_append _hs).2
  simp only [_hcs, List.length_append, List.length_cons] at whole lexeme ⊢
  omega

end Lexer

/-- The tokens of a source, or the first fault in it and where it stands. -/
def tokenize (source : String) : Except (Position × LexicalFault) (List Token) :=
  Lexer.tokensFrom .start source.toList

end SchemaCompiler
