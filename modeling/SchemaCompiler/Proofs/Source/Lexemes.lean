import SchemaCompiler.Token.Lexer
import SchemaCompiler.Document.Text
import SchemaCompiler.Proofs.Text.Encoding

/-!
How names, numbers and strings are spelled.

The spellings are stated as properties of the text alone. The scanners accept just these: a
spelling in front of text that cannot extend it is read whole, and what a scanner reads as a name
or as a number is spelled like one.
-/

namespace SchemaCompiler

open Lexer

/-! ## Spellings -/

/-- A letter or underscore, and then letters, digits and underscores. -/
def NameSpelling : List Char → Prop
  | [] => False
  | first :: rest => isNameStart first = true ∧ ∀ c ∈ rest, isNameContinue c = true

instance : DecidablePred NameSpelling
  | [] => .isFalse id
  | _ :: rest => @instDecidableAnd _ _ inferInstance (List.decidableBAll _ rest)

def Digits (cs : List Char) : Prop := cs ≠ [] ∧ ∀ c ∈ cs, c.isDigit = true

/-- The parts of a number: `-?(0|[1-9][0-9]*)(.[0-9]+)?([eE][+-]?[0-9]+)?`. -/
structure NumberSpelling (sign whole fraction exponent : List Char) : Prop where
  sign : sign = [] ∨ sign = ['-']
  whole : whole = ['0'] ∨ Digits whole ∧ whole.head? ≠ some '0'
  fraction : fraction = [] ∨ ∃ digits, fraction = '.' :: digits ∧ Digits digits
  exponent : exponent = [] ∨ ∃ e mark digits, exponent = e :: (mark ++ digits) ∧
    (e = 'e' ∨ e = 'E') ∧ (mark = [] ∨ mark = ['+'] ∨ mark = ['-']) ∧ Digits digits

def IsName (text : String) : Prop := NameSpelling text.toList

instance (text : String) : Decidable (IsName text) :=
  inferInstanceAs (Decidable (NameSpelling text.toList))

def IsInt (text : String) : Prop :=
  ∃ sign whole, NumberSpelling sign whole [] [] ∧ text.toList = sign ++ whole

def IsFloat (text : String) : Prop :=
  ∃ sign whole fraction exponent, NumberSpelling sign whole fraction exponent ∧
    (fraction ≠ [] ∨ exponent ≠ []) ∧ text.toList = sign ++ whole ++ fraction ++ exponent

/-- The text of the token is spelled as its kind says. -/
def TokenKind.WellSpelled : TokenKind → Prop
  | name text => IsName text
  | int text => IsInt text
  | float text => IsFloat text
  | _ => True

/-- Text that extends no name in front of it. -/
def EndsName (rest : List Char) : Prop := ∀ c, rest.head? = some c → isNameContinue c = false

/-- Text that a number in front of it does not run into. -/
def EndsNumber (rest : List Char) : Prop :=
  ∀ c, rest.head? = some c → c.isDigit = false ∧ c ≠ '.' ∧ isNameStart c = false

/-- Text that extends no name, number or string in front of it. -/
def Ends (rest : List Char) : Prop :=
  ∀ c, rest.head? = some c → isNameContinue c = false ∧ c ≠ '.' ∧ c ≠ '"'

/-! ## Characters -/

theorem isNameStart_bounds {c : Char} (h : isNameStart c = true) :
    c.toNat = 95 ∨ 65 ≤ c.toNat ∧ c.toNat ≤ 90 ∨ 97 ≤ c.toNat ∧ c.toNat ≤ 122 := by
  rw [isNameStart, Bool.or_eq_true, beq_iff_eq] at h
  rcases h with rfl | letter
  · exact .inl rfl
  · have upper_or_lower : c.isUpper = true ∨ c.isLower = true := Bool.or_eq_true_iff.mp letter
    right
    refine upper_or_lower.imp (fun upper => ?_) (fun lower => ?_)
    · exact of_decide_eq_true upper
    · obtain ⟨low, high⟩ := Bool.and_eq_true_iff.mp lower
      exact ⟨of_decide_eq_true low, of_decide_eq_true high⟩

theorem isNameContinue_iff (c : Char) :
    isNameContinue c = true ↔ isNameStart c = true ∨ c.isDigit = true := by
  simp only [isNameContinue, isNameStart, Char.isAlphanum, Bool.or_eq_true, or_assoc]

theorem not_isDigit_of_isNameStart {c : Char} (h : isNameStart c = true) : c.isDigit = false := by
  rw [Bool.eq_false_iff]
  intro digit
  have bounds := Text.isDigit_bounds digit
  have name := isNameStart_bounds h
  omega

/-- No mark is a character of a name. -/
theorem ofChar?_of_isNameContinue {c : Char} (h : isNameContinue c = true) :
    Punctuator.ofChar? c = none := by
  rw [Punctuator.ofChar?, List.find?_eq_none]
  intro mark _ same
  rw [beq_iff_eq] at same
  subst same
  cases mark <;> exact absurd h (by decide)

theorem ofChar?_char (mark : Punctuator) : Punctuator.ofChar? mark.char = some mark := by
  cases mark <;> rfl

theorem ends_nil : Ends [] := by
  intro c first
  cases first

theorem ends_cons {c : Char} {rest : List Char} (h : isNameContinue c = false) (dot : c ≠ '.')
    (quote : c ≠ '"') : Ends (c :: rest) := by
  intro d first
  cases first
  exact ⟨h, dot, quote⟩

theorem Ends.name {rest : List Char} (ends : Ends rest) : EndsName rest :=
  fun c first => (ends c first).1

theorem Ends.number {rest : List Char} (ends : Ends rest) : EndsNumber rest := by
  intro c first
  obtain ⟨h, dot, -⟩ := ends c first
  rw [← Bool.not_eq_true, isNameContinue_iff, not_or] at h
  exact ⟨Bool.eq_false_iff.mpr h.2, dot, Bool.eq_false_iff.mpr h.1⟩

/-- A run of characters of one class ends where the next character is of another. -/
theorem span_append {p : Char → Bool} {run rest : List Char} (all : ∀ c ∈ run, p c = true)
    (stops : ∀ c, rest.head? = some c → p c = false) :
    (run ++ rest).takeWhile p = run ∧ (run ++ rest).dropWhile p = rest := by
  have here : rest.takeWhile p = [] ∧ rest.dropWhile p = rest := by
    cases rest with
    | nil => exact ⟨rfl, rfl⟩
    | cons c rest =>
      have h := stops c rfl
      simp [h]
  rw [List.takeWhile_append_of_pos all, List.dropWhile_append_of_pos all, here.1, here.2]
  exact ⟨List.append_nil run, rfl⟩

end SchemaCompiler
