import SchemaCompiler.Page.Markdown
import SchemaCompiler.Proofs.Commonmark.Names
import SchemaCompiler.Proofs.Document.ConstantReading
import SchemaCompiler.Proofs.Text.Pieces

/-!
What texts with code in them tell.

A page shows default values and applied directives as code, each at the end of a line of its own.
Texts made of the same pieces around such code are equal only if the code is, and what stands behind
them is equal too, so this goes on from piece to piece.
-/

namespace SchemaCompiler

open Grammar

/-! ## Constants in one line -/

def OneLine (text : String) : Prop := '\n' ∉ text.toList

instance (text : String) : Decidable (OneLine text) :=
  inferInstanceAs (Decidable ('\n' ∉ text.toList))

theorem oneLine_append_iff {front back : String} :
    OneLine (front ++ back) ↔ OneLine front ∧ OneLine back := by
  rw [OneLine, String.toList_append, List.mem_append, not_or]
  rfl

theorem OneLine.intercalate {separator : String} (plain : OneLine separator) {texts : List String}
    (each : ∀ text ∈ texts, OneLine text) : OneLine (String.intercalate separator texts) := by
  intro member
  obtain ⟨text, listed, inside⟩ := (Text.mem_intercalate_iff plain texts).mp member
  exact each text listed inside

theorem oneLine_name {text : String} (h : IsName text) : OneLine text := by
  intro member
  have kind := (Commonmark.chars_of_nameSpelling h).2 _ member
  revert kind
  decide

theorem Digits.not_lineEnd {cs : List Char} (h : Digits cs) : '\n' ∉ cs := by
  intro member
  have digit := h.2 _ member
  revert digit
  decide

theorem NumberSpelling.not_lineEnd {sign whole fraction exponent : List Char}
    (h : NumberSpelling sign whole fraction exponent) :
    '\n' ∉ sign ++ whole ++ fraction ++ exponent := by
  have front : '\n' ∉ sign := by
    rcases h.sign with rfl | rfl <;> decide
  have digits : '\n' ∉ whole := by
    rcases h.whole with rfl | ⟨digits, -⟩
    · decide
    · exact digits.not_lineEnd
  have behindPoint : '\n' ∉ fraction := by
    rcases h.fraction with rfl | ⟨cs, rfl, digits⟩
    · decide
    · simp [digits.not_lineEnd]
  have power : '\n' ∉ exponent := by
    rcases h.exponent with rfl | ⟨e, mark, cs, rfl, letter, marked, digits⟩
    · decide
    · rcases letter with rfl | rfl <;> rcases marked with rfl | rfl | rfl <;>
        simp [digits.not_lineEnd]
  simp [front, digits, behindPoint, power]

theorem oneLine_quoted (value : String) : OneLine (Value.quoted value) := by
  have each (c : Char) : '\n' ∉ (Value.escapedChar c).toList := by
    by_cases lineEnd : c = '\n'
    · rw [lineEnd]
      decide
    · have other : '\n' ≠ c := fun same => lineEnd same.symm
      unfold Value.escapedChar
      repeat' split
      all_goals simp [Char.toString, other]
  rw [OneLine, toList_quoted, Lexer.escaped]
  simp [each]

namespace Value

theorem oneLine_listed {front back : String} (opened : OneLine front) (closed : OneLine back)
    {texts : List String} (each : ∀ text ∈ texts, OneLine text) :
    OneLine (front ++ String.intercalate ", " texts ++ back) := by
  have inside : OneLine (String.intercalate ", " texts) := OneLine.intercalate (by decide) each
  exact oneLine_append_iff.mpr ⟨oneLine_append_iff.mpr ⟨opened, inside⟩, closed⟩

theorem oneLine_entry {name : String} {value : Value} (named : IsName name)
    (inside : OneLine value.text) : OneLine (name ++ ": " ++ value.text) :=
  oneLine_append_iff.mpr ⟨oneLine_append_iff.mpr ⟨oneLine_name named, by decide⟩, inside⟩

mutual

theorem oneLine : (value : Value) → value.WellFormed → OneLine value.text
  | .int text, h => by
    obtain ⟨sign, whole, spelling, shape⟩ := h
    have plain := spelling.not_lineEnd
    rwa [List.append_nil, List.append_nil, ← shape] at plain
  | .float text, h => by
    obtain ⟨sign, whole, fraction, exponent, spelling, -, shape⟩ := h
    have plain := spelling.not_lineEnd
    rwa [← shape] at plain
  | .string value, _ => oneLine_quoted value
  | .boolean true, _ => (by decide : OneLine "true")
  | .boolean false, _ => (by decide : OneLine "false")
  | .null, _ => (by decide : OneLine "null")
  | .enum name, h => oneLine_name h.1
  | .list items, h => oneLine_listed (by decide) (by decide) (oneLine_items items h)
  | .object entries, h => oneLine_listed (by decide) (by decide) (oneLine_entries entries h)

theorem oneLine_items : (items : List Value) → ItemsWellFormed items →
    ∀ text ∈ itemTexts items, OneLine text
  | [], _ => List.forall_mem_nil _
  | item :: items, h =>
    List.forall_mem_cons.mpr ⟨oneLine item h.1, oneLine_items items h.2⟩

theorem oneLine_entries : (entries : List (String × Value)) → EntriesWellFormed entries →
    ∀ text ∈ entryTexts entries, OneLine text
  | [], _ => List.forall_mem_nil _
  | (_, value) :: entries, h =>
    List.forall_mem_cons.mpr
      ⟨oneLine_entry h.1 (oneLine value h.2.1), oneLine_entries entries h.2.2⟩

end

end Value

theorem DirectiveUse.oneLine {use : DirectiveUse} (good : use.WellFormed) : OneLine use.text := by
  obtain ⟨name, args, place⟩ := use
  have named : OneLine ("@" ++ name) := oneLine_append_iff.mpr ⟨by decide, oneLine_name good.1⟩
  cases args with
  | nil => exact named
  | cons first others =>
    have opened : OneLine ("@" ++ name ++ "(") := oneLine_append_iff.mpr ⟨named, by decide⟩
    refine Value.oneLine_listed opened (by decide) fun text member => ?_
    obtain ⟨arg, inside, rfl⟩ := List.mem_map.mp member
    exact Value.oneLine_entry (good.2 arg inside).1 (arg.value.oneLine (good.2 arg inside).2)

theorem oneLine_directiveList {uses : List DirectiveUse} (good : ∀ use ∈ uses, use.WellFormed) :
    OneLine (Page.directiveList uses) := by
  refine OneLine.intercalate (by decide) fun text member => ?_
  obtain ⟨use, inside, rfl⟩ := List.mem_map.mp member
  exact DirectiveUse.oneLine (good use inside)

namespace Page

/-! ## Texts that end alike -/

/-- The texts are equal or have the same last two characters at least. -/
def EndAlike (text other : String) : Prop :=
  text = other ∨ ∃ front front' back, 2 ≤ back.length ∧
    text.toList = front ++ back ∧ other.toList = front' ++ back

theorem EndAlike.append {text other more more' : String} (h : EndAlike text other)
    (h' : EndAlike more more') : EndAlike (text ++ more) (other ++ more') := by
  rcases h' with rfl | ⟨front, front', back, long, shape, shape'⟩
  · rcases h with rfl | ⟨front, front', back, long, shape, shape'⟩
    · exact .inl rfl
    · refine .inr ⟨front, front', back ++ more.toList, ?_, ?_, ?_⟩
      · rw [List.length_append]
        omega
      · rw [String.toList_append, shape, List.append_assoc]
      · rw [String.toList_append, shape', List.append_assoc]
  · refine .inr ⟨text.toList ++ front, other.toList ++ front', back, long, ?_, ?_⟩
    · rw [String.toList_append, shape, List.append_assoc]
    · rw [String.toList_append, shape', List.append_assoc]

theorem exists_last_two {back : List Char} (long : 2 ≤ back.length) :
    ∃ middle a b, back = middle ++ [a, b] := by
  have whole := List.take_append_drop (back.length - 2) back
  have length : (back.drop (back.length - 2)).length = 2 := by
    rw [List.length_drop]
    omega
  match last : back.drop (back.length - 2), length with
  | [a, b], _ => exact ⟨_, a, b, by rw [← last, whole]⟩

theorem dropEmptyEnd_eq {text : String} {front : List Char} {a b : Char}
    (shape : text.toList = front ++ [a, b]) :
    dropEmptyEnd text = if a = '\n' ∧ b = '\n' then String.ofList (front ++ ['\n']) else text := by
  have reversed : text.toList.reverse = b :: a :: front.reverse := by simp [shape]
  unfold dropEmptyEnd
  rw [reversed]
  split
  · next rest same =>
    simp only [List.cons.injEq] at same
    obtain ⟨rfl, rfl, rfl⟩ := same
    simp
  · next different =>
    rw [if_neg]
    rintro ⟨rfl, rfl⟩
    exact different _ rfl

/-- Of texts that end alike both lose an empty line, or neither does. -/
theorem EndAlike.dropEmptyEnd_cases {text other : String} (h : EndAlike text other) :
    text = other ∨ (dropEmptyEnd text = text ∧ dropEmptyEnd other = other) ∨
      (dropEmptyEnd text ++ "\n" = text ∧ dropEmptyEnd other ++ "\n" = other) := by
  rcases h with same | ⟨front, front', back, long, shape, shape'⟩
  · exact .inl same
  · right
    obtain ⟨middle, a, b, rfl⟩ := exists_last_two long
    rw [← List.append_assoc] at shape shape'
    rw [dropEmptyEnd_eq shape, dropEmptyEnd_eq shape']
    by_cases empty : a = '\n' ∧ b = '\n'
    · right
      rw [if_pos empty, if_pos empty, ← String.toList_inj, ← String.toList_inj, shape, shape']
      simp [empty]
    · left
      rw [if_neg empty, if_neg empty]
      exact ⟨rfl, rfl⟩

/-! ## Texts that tell -/

/-- Whenever longer texts that begin with these are equal, so is what stands behind, and this holds
of the beginnings. -/
structure Tells (text other : String) (p : Prop) : Prop where
  split : ∀ {rest rest' : String}, text ++ rest = other ++ rest' → p ∧ rest = rest'
  ends : EndAlike text other

namespace Tells

variable {text other : String} {p : Prop}

theorem same (text : String) : Tells text text True :=
  ⟨fun equal => ⟨trivial, (String.append_right_inj text).mp equal⟩, .inl rfl⟩

theorem mono {q : Prop} (h : Tells text other p) (imp : p → q) : Tells text other q :=
  ⟨fun equal => ⟨imp (h.split equal).1, (h.split equal).2⟩, h.ends⟩

theorem append {more more' : String} {q : Prop} (h : Tells text other p)
    (h' : Tells more more' q) : Tells (text ++ more) (other ++ more') (p ∧ q) := by
  refine ⟨fun equal => ?_, h.ends.append h'.ends⟩
  rw [String.append_assoc, String.append_assoc] at equal
  obtain ⟨first, later⟩ := h.split equal
  obtain ⟨second, behind⟩ := h'.split later
  exact ⟨⟨first, second⟩, behind⟩

theorem behind (front : String) (h : Tells text other p) :
    Tells (front ++ text) (front ++ other) p :=
  ((same front).append h).mono And.right

theorem before (h : Tells text other p) (back : String) : Tells (text ++ back) (other ++ back) p :=
  (h.append (same back)).mono And.left

theorem holds (h : Tells text other p) (equal : text = other) : p :=
  (h.split (congrArg (· ++ "") equal)).1

/-- Code in one line, with the end of its line. -/
theorem code {code code' : String} (plain : OneLine code) (plain' : OneLine code') :
    Tells (code ++ "`\n") (code' ++ "`\n") (code = code') := by
  constructor
  · intro rest rest' equal
    have chars : code.toList ++ '`' :: '\n' :: rest.toList =
        code'.toList ++ '`' :: '\n' :: rest'.toList := by
      simpa using congrArg String.toList equal
    -- Both codes, with the tick behind them, are what stands in front of the first line end.
    have line (code rest : String) (plain : OneLine code) :
        (code.toList ++ '`' :: '\n' :: rest.toList).takeWhile (· ≠ '\n') =
          code.toList ++ ['`'] := by
      rw [List.takeWhile_append_of_pos fun c member => ?_]
      · rfl
      · exact decide_eq_true fun same => plain (same ▸ member)
    have first : code = code' := by
      have lines := congrArg (List.takeWhile (· ≠ '\n')) chars
      rw [line _ _ plain, line _ _ plain', List.append_left_inj] at lines
      exact String.toList_inj.mp lines
    refine ⟨first, ?_⟩
    rw [first] at equal
    exact (String.append_right_inj _).mp equal
  · exact .inr ⟨code.toList, code'.toList, "`\n".toList, by simp, String.toList_append,
      String.toList_append⟩

/-- One empty line behind the texts may be missing. -/
theorem dropEmptyEnd (h : Tells text other p) :
    Tells (Page.dropEmptyEnd text ++ "\n") (Page.dropEmptyEnd other ++ "\n") p := by
  rcases h.ends.dropEmptyEnd_cases with equal | ⟨whole, whole'⟩ | ⟨cut, cut'⟩
  · have given := h.holds equal
    rw [equal]
    exact (same _).mono fun _ => given
  · rw [whole, whole']
    exact h.before "\n"
  · rw [cut, cut']
    exact h

/-- Pieces in a row, one for each item of a list. -/
theorem joined {α : Type} {f g : α → String} {q : α → Prop} {items : List α}
    (each : ∀ item ∈ items, Tells (f item) (g item) (q item)) :
    Tells (String.join (items.map f)) (String.join (items.map g)) (∀ item ∈ items, q item) := by
  induction items with
  | nil => exact (same "").mono fun _ => List.forall_mem_nil _
  | cons item items ih =>
    obtain ⟨first, more⟩ := List.forall_mem_cons.mp each
    rw [List.map_cons, List.map_cons, String.join_cons, String.join_cons]
    exact (first.append (ih more)).mono List.forall_mem_cons.mpr

/-- Pieces in a row for items that two views pair. -/
theorem join {α β γ : Type} {f : α → String} {masked : α → β} {plain : α → γ}
    {items others : List α} (alike : items.map masked = others.map masked)
    (each : ∀ item ∈ items, ∀ item' ∈ others, masked item = masked item' →
      Tells (f item) (f item') (plain item = plain item')) :
    Tells (String.join (items.map f)) (String.join (others.map f))
      (items.map plain = others.map plain) := by
  induction items generalizing others with
  | nil =>
    obtain rfl : others = [] := List.map_eq_nil_iff.mp alike.symm
    exact (same "").mono fun _ => rfl
  | cons item items ih =>
    cases others with
    | nil => cases alike
    | cons item' others =>
      obtain ⟨one, more⟩ := List.cons.inj alike
      have first := each item List.mem_cons_self item' List.mem_cons_self one
      have later := ih more fun next member next' member' =>
        each next (List.mem_cons_of_mem _ member) next' (List.mem_cons_of_mem _ member')
      simp only [List.map_cons, String.join_cons, List.cons.injEq]
      exact first.append later

/-- A piece that is left out if there are no items. -/
theorem unlessEmpty {α γ : Type} {plain : α → γ} {items others : List α}
    (empty : items.isEmpty = others.isEmpty)
    (h : Tells text other (items.map plain = others.map plain)) :
    Tells (if items.isEmpty then "" else text) (if others.isEmpty then "" else other)
      (items.map plain = others.map plain) := by
  rw [← empty]
  split
  · next none =>
    rw [List.isEmpty_iff.mp none, List.isEmpty_iff.mp (empty.symm.trans none)]
    exact (same "").mono fun _ => rfl
  · exact h

end Tells

end Page

end SchemaCompiler
