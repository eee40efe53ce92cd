import SchemaCompiler.Document.Grammar

/-!
Productions that read what is in front of them.

What a production has left carries a bound on its length. `Yields` forgets the bound, and its rules
follow a production step by step. `Reads` is the statement made of every production: in front of
tokens of certain kinds it reads a certain thing, up to positions, and leaves the tokens behind.
-/

namespace SchemaCompiler.Grammar

/-! ## Outcomes -/

section

variable {α β : Type} {Q Q' : List Token → Prop} {a : α} {b : β} {rest rest' : List Token}

/-- The production gives `a` and leaves `rest`. -/
def Yields (outcome : Except Failure (α × { rest : List Token // Q rest })) (a : α)
    (rest : List Token) : Prop :=
  ∃ bound, outcome = .ok (a, ⟨rest, bound⟩)

theorem yields_ok {bound : Q rest} :
    Yields (.ok (a, ⟨rest, bound⟩) : Except Failure (α × { rest : List Token // Q rest })) a rest :=
  ⟨bound, rfl⟩

theorem Yields.bind {first : Except Failure (α × { rest : List Token // Q rest })}
    {next : α × { rest : List Token // Q rest } →
      Except Failure (β × { rest : List Token // Q' rest })}
    (h : Yields first a rest) (h' : ∀ bound, Yields (next (a, ⟨rest, bound⟩)) b rest') :
    Yields (first >>= next) b rest' := by
  obtain ⟨bound, rfl⟩ := h
  exact h' bound

end

/-! ## Kinds of tokens -/

/-- The kinds of tokens, without their places. -/
def kindsOf (ts : List Token) : List TokenKind := ts.map (·.kind)

theorem kindsOf_eq_cons {ts : List Token} {kind : TokenKind} {kinds : List TokenKind}
    (shape : kindsOf ts = kind :: kinds) :
    ∃ place rest, ts = ⟨kind, place⟩ :: rest ∧ kindsOf rest = kinds := by
  cases ts with
  | nil => cases shape
  | cons t rest =>
    obtain ⟨rfl, behind⟩ := List.cons.inj shape
    exact ⟨t.position, rest, rfl, behind⟩

/-- On tokens of these kinds with others behind them, the production reads something that looks
like `a`, and leaves the others. -/
def Reads {α γ : Type} {Q : List Token → List Token → Prop}
    (production : (ts : List Token) → Except Failure (α × { rest : List Token // Q ts rest }))
    (look : α → γ) (a : α) (kinds behind : List TokenKind) : Prop :=
  ∀ ts, kindsOf ts = kinds ++ behind →
    ∃ found rest, Yields (production ts) found rest ∧ kindsOf rest = behind ∧ look found = look a

/-- The next token is not this one. -/
def NotNext (kind : TokenKind) (kinds : List TokenKind) : Prop := kinds.head? ≠ some kind

theorem notNext_cons {kind other : TokenKind} (different : other ≠ kind) (kinds : List TokenKind) :
    NotNext kind (other :: kinds) := by
  intro same
  exact different (Option.some.inj same)

/-! ## Single tokens -/

theorem takeMark?_next {mark : Punctuator} {ts : List Token} {behind : List TokenKind}
    (shape : kindsOf ts = .punct mark :: behind) :
    ∃ place rest bound, takeMark? mark ts = some (place, ⟨rest, bound⟩) ∧ kindsOf rest = behind := by
  obtain ⟨place, rest, rfl, shape'⟩ := kindsOf_eq_cons shape
  refine ⟨place, rest, by simp, ?_, shape'⟩
  rw [takeMark?, if_pos rfl]

theorem eq_cons_of_takeMark? {mark : Punctuator} {ts rest : List Token} {place : Position}
    {bound : rest.length < ts.length} (taken : takeMark? mark ts = some (place, ⟨rest, bound⟩)) :
    ts = ⟨.punct mark, place⟩ :: rest := by
  unfold takeMark? at taken
  split at taken
  · split at taken
    · next same =>
      cases taken
      rw [same]
    · cases taken
  · cases taken

theorem takeMark?_none {mark : Punctuator} {ts : List Token}
    (other : NotNext (.punct mark) (kindsOf ts)) : takeMark? mark ts = none := by
  unfold takeMark?
  split
  · next m place rest =>
    have different : m ≠ mark := by
      rintro rfl
      exact other rfl
    rw [if_neg different]
  · rfl

theorem takeKeyword?_next {word : String} {ts : List Token} {behind : List TokenKind}
    (shape : kindsOf ts = .name word :: behind) :
    ∃ place rest bound, takeKeyword? word ts = some (place, ⟨rest, bound⟩) ∧
      kindsOf rest = behind := by
  obtain ⟨place, rest, rfl, shape'⟩ := kindsOf_eq_cons shape
  refine ⟨place, rest, by simp, ?_, shape'⟩
  rw [takeKeyword?, if_pos rfl]

theorem eq_cons_of_takeKeyword? {word : String} {ts rest : List Token} {place : Position}
    {bound : rest.length < ts.length}
    (taken : takeKeyword? word ts = some (place, ⟨rest, bound⟩)) :
    ts = ⟨.name word, place⟩ :: rest := by
  unfold takeKeyword? at taken
  split at taken
  · split at taken
    · next same =>
      cases taken
      rw [same]
    · cases taken
  · cases taken

theorem takeKeyword?_none {word : String} {ts : List Token}
    (other : NotNext (.name word) (kindsOf ts)) : takeKeyword? word ts = none := by
  unfold takeKeyword?
  split
  · next w place rest =>
    have different : w ≠ word := by
      rintro rfl
      exact other rfl
    rw [if_neg different]
  · rfl

theorem expectMark_next {mark : Punctuator} {ts : List Token} {behind : List TokenKind}
    (shape : kindsOf ts = .punct mark :: behind) :
    ∃ place rest, Yields (expectMark mark ts) place rest ∧ kindsOf rest = behind := by
  obtain ⟨place, rest, bound, taken, shape'⟩ := takeMark?_next shape
  refine ⟨place, rest, ⟨bound, ?_⟩, shape'⟩
  rw [expectMark, taken]

theorem expectKeyword_next {word : String} {ts : List Token} {behind : List TokenKind}
    (shape : kindsOf ts = .name word :: behind) :
    ∃ place rest, Yields (expectKeyword word ts) place rest ∧ kindsOf rest = behind := by
  obtain ⟨place, rest, bound, taken, shape'⟩ := takeKeyword?_next shape
  refine ⟨place, rest, ⟨bound, ?_⟩, shape'⟩
  rw [expectKeyword, taken]

theorem expectName_next {name : String} {ts : List Token} {behind : List TokenKind}
    (shape : kindsOf ts = .name name :: behind) :
    ∃ place rest, Yields (expectName ts) (name, place) rest ∧ kindsOf rest = behind := by
  obtain ⟨place, rest, rfl, shape'⟩ := kindsOf_eq_cons shape
  exact ⟨place, rest, ⟨by simp, rfl⟩, shape'⟩

/-- In front of a name there is no mark to skip. -/
theorem skipMark_name (mark : Punctuator) {name : String} {ts : List Token}
    {behind : List TokenKind} (shape : kindsOf ts = .name name :: behind) :
    kindsOf (skipMark mark ts).val = .name name :: behind := by
  have absent : takeMark? mark ts = none := by
    apply takeMark?_none
    rw [shape]
    exact notNext_cons (by simp) _
  rw [skipMark, absent]
  exact shape

/-- The kinds of an optional description. -/
def descriptionKinds : Option String → List TokenKind
  | none => []
  | some text => [.string text]

theorem description_reads (text : Option String) {ts : List Token} {behind : List TokenKind}
    (shape : kindsOf ts = descriptionKinds text ++ behind)
    (other : ∀ more, behind.head? ≠ some (.string more)) :
    ∃ rest bound, description ts = (text, ⟨rest, bound⟩) ∧ kindsOf rest = behind := by
  cases text with
  | none =>
    refine ⟨ts, Nat.le_refl _, ?_, shape⟩
    unfold description
    split
    · next more place rest =>
      exact absurd (congrArg List.head? shape).symm (other more)
    · rfl
  | some text =>
    obtain ⟨place, rest, rfl, shape'⟩ := kindsOf_eq_cons shape
    exact ⟨rest, by simp, rfl, shape'⟩

end SchemaCompiler.Grammar
