import SchemaCompiler.Proofs.Grammar.Cursor
import SchemaCompiler.Proofs.Grammar.Following

/-!
Reading always gets on.

The cursor follows the grammar: where a production stands in front of some tokens, so does the
cursor, and both find the same. The productions are known to end, so the loops of the cursor do.
What its history has to show is kept from step to step: no look goes past the end of the source, the
index never goes back, and whatever is passed holds a token. A round of a loop ends in front of
fewer tokens than it began with, since an item never takes the end of the source for its own.
-/

namespace SchemaCompiler.Grammar

/-! ## The tokens in front of a cursor -/

/-- The end of the source is the last token and no other one. -/
def EndsOnce (ts : List Token) : Prop :=
  ∃ front place, ts = front ++ [⟨.eof, place⟩] ∧ ∀ t ∈ front, t.kind ≠ .eof

theorem EndsOnce.behind {t : Token} {rest : List Token} (h : EndsOnce (t :: rest)) :
    t.kind = .eof ∧ rest = [] ∨ t.kind ≠ .eof ∧ EndsOnce rest := by
  obtain ⟨front, place, shape, inside⟩ := h
  cases front with
  | nil =>
    cases shape
    exact .inl ⟨rfl, rfl⟩
  | cons first front =>
    cases shape
    obtain ⟨first_inside, inside⟩ := List.forall_mem_cons.mp inside
    exact .inr ⟨first_inside, front, place, rfl, inside⟩

theorem EndsOnce.length_pos {ts : List Token} (h : EndsOnce ts) : 0 < ts.length := by
  obtain ⟨front, place, rfl, -⟩ := h
  rw [List.length_append]
  exact Nat.succ_pos _

theorem EndsOnce.length_eq_one {ts : List Token} (h : EndsOnce ts)
    (last : (next ts).kind = .eof) : ts.length = 1 := by
  cases ts with
  | nil => exact absurd h.length_pos (Nat.lt_irrefl 0)
  | cons t rest =>
    obtain ⟨-, rfl⟩ := h.behind.resolve_right fun inside => inside.1 last
    rfl

/-- How a cursor on so many tokens behaved. -/
structure Cursor.Orderly (count : Nat) (c : Cursor) : Prop where
  /-- It is at one of the tokens. -/
  inside : c.index < count
  /-- It only looked at the tokens. -/
  looks : ∀ index ahead, .look index ahead ∈ c.history → index + ahead < count
  /-- Whatever it passed holds a token. -/
  passes : ∀ start index, .pass start index ∈ c.history → start < index
  /-- It never went back, up to where it is now. -/
  forward : c.history.Pairwise fun earlier later => earlier.index ≤ later.index
  behind : ∀ note ∈ c.history, note.index ≤ c.index

/-- The cursor is orderly, stands in front of the tokens, and no limit is in the way. -/
structure Cursor.Faces (c : Cursor) (tape : Tape) (ts : List Token) : Prop where
  left : tape.tokens.drop c.index = ts
  ends : EndsOnce ts
  orderly : c.Orderly tape.tokens.length
  enough : tape.tokens.length ≤ tape.limit

variable {tape : Tape} {ts rest : List Token} {c : Cursor}

theorem Cursor.Orderly.append {count : Nat} {new : Note} (h : c.Orderly count)
    (stands : new.index = c.index)
    (look : ∀ index ahead, new = .look index ahead → index + ahead < count)
    (pass : ∀ start index, new = .pass start index → start < index) :
    Cursor.Orderly count { c with history := c.history ++ [new] } where
  inside := h.inside
  looks index ahead found :=
    (List.mem_append.mp found).elim (h.looks index ahead) fun last =>
      look index ahead (List.mem_singleton.mp last).symm
  passes start index found :=
    (List.mem_append.mp found).elim (h.passes start index) fun last =>
      pass start index (List.mem_singleton.mp last).symm
  forward := by
    refine List.pairwise_append.mpr ⟨h.forward, List.pairwise_singleton _ _, ?_⟩
    intro earlier found later last
    rw [List.mem_singleton.mp last, stands]
    exact h.behind earlier found
  behind := by
    refine List.forall_mem_append.mpr ⟨h.behind, List.forall_mem_singleton.mpr ?_⟩
    exact Nat.le_of_eq stands

theorem Cursor.Orderly.advance {count : Nat} (h : c.Orderly count) (inside : c.index + 1 < count) :
    Cursor.Orderly count { c with index := c.index + 1 } where
  inside := inside
  looks := h.looks
  passes := h.passes
  forward := h.forward
  behind note found := Nat.le_succ_of_le (h.behind note found)

theorem Cursor.Faces.start {tokens : List Token} {limit : Nat} (ends : EndsOnce tokens)
    (enough : tokens.length ≤ limit) : Cursor.start.Faces ⟨tokens, limit⟩ tokens where
  left := rfl
  ends := ends
  orderly := ⟨ends.length_pos, nofun, nofun, .nil, nofun⟩
  enough := enough

theorem Cursor.Faces.length (h : c.Faces tape ts) :
    c.index + ts.length = tape.tokens.length := by
  have inside := h.orderly.inside
  rw [← h.left, List.length_drop]
  omega

/-- A count that is enough for the tokens has not run out, and one less is enough for fewer. -/
theorem Cursor.Faces.counts {n : Nat} (h : c.Faces tape ts) (enough : ts.length ≤ n) :
    ∃ m, n = m + 1 ∧ ∀ rest : List Token, rest.length < ts.length → rest.length ≤ m := by
  have inside := h.ends.length_pos
  exact ⟨n - 1, by omega, fun rest less => by omega⟩

/-! ## Following the grammar -/

section

variable {α β : Type} {Q Q' : List Token → Prop} {c' : Cursor} {a : α} {b : β}

theorem Reader.bind_ok {r : Reader α} {next : α → Reader β} (run : r tape c = some (.ok a, c')) :
    (r >>= next) tape c = next a tape c' := by
  simp only [bind, ReaderT.bind, ExceptT.bind, ExceptT.mk, StateT.bind, run]
  rfl

theorem Reader.bind_error {r : Reader α} {next : α → Reader β} {failure : Failure}
    (run : r tape c = some (.error failure, c')) :
    (r >>= next) tape c = some (.error failure, c') := by
  simp only [bind, ReaderT.bind, ExceptT.bind, ExceptT.mk, StateT.bind, run]
  rfl

/-- The reader answers and leaves the cursor in front of the tokens. -/
def Runs (tape : Tape) (c : Cursor) (r : Reader α) (a : α) (rest : List Token) : Prop :=
  ∃ c', r tape c = some (.ok a, c') ∧ c'.Faces tape rest

/-- The outcome of a reader is that of a production, and the cursor is still orderly. -/
inductive Agrees (tape : Tape) : Option (Except Failure α × Cursor) →
    Except Failure (α × { rest : List Token // Q rest }) → Prop where
  | ok {a : α} {c : Cursor} {rest : List Token} {bound : Q rest} (h : c.Faces tape rest) :
      Agrees tape (some (.ok a, c)) (.ok (a, ⟨rest, bound⟩))
  | error {failure : Failure} {c : Cursor} (h : c.Orderly tape.tokens.length) :
      Agrees tape (some (.error failure, c)) (.error failure)

/-- The reader finds what the production finds. -/
def Follows (tape : Tape) (c : Cursor) (r : Reader α)
    (outcome : Except Failure (α × { rest : List Token // Q rest })) : Prop :=
  Agrees tape (r tape c) outcome

theorem Runs.pure (a : α) (h : c.Faces tape ts) : Runs tape c (pure a) a ts := ⟨c, rfl, h⟩

theorem Runs.then {r : Reader α} {next : α → Reader β} (h : Runs tape c r a rest)
    (h' : ∀ c', c'.Faces tape rest → Runs tape c' (next a) b ts) :
    Runs tape c (r >>= next) b ts := by
  obtain ⟨c', run, faces⟩ := h
  obtain ⟨c'', run', faces'⟩ := h' c' faces
  exact ⟨c'', (Reader.bind_ok run).trans run', faces'⟩

theorem Runs.bind {r : Reader α} {next : α → Reader β}
    {outcome : Except Failure (β × { rest : List Token // Q rest })} (h : Runs tape c r a rest)
    (h' : ∀ c', c'.Faces tape rest → Follows tape c' (next a) outcome) :
    Follows tape c (r >>= next) outcome := by
  obtain ⟨c', run, faces⟩ := h
  rw [Follows, Reader.bind_ok run]
  exact h' c' faces

/-- A test that turns out true. -/
theorem Runs.yes {r : Reader Bool} {yes no : Reader β}
    {outcome : Except Failure (β × { rest : List Token // Q rest })} (h : Runs tape c r true rest)
    (h' : ∀ c', c'.Faces tape rest → Follows tape c' yes outcome) :
    Follows tape c (r >>= fun found => if found = true then yes else no) outcome :=
  h.bind h'

/-- A test that turns out false. -/
theorem Runs.no {r : Reader Bool} {yes no : Reader β}
    {outcome : Except Failure (β × { rest : List Token // Q rest })} (h : Runs tape c r false rest)
    (h' : ∀ c', c'.Faces tape rest → Follows tape c' no outcome) :
    Follows tape c (r >>= fun found => if found = true then yes else no) outcome :=
  h.bind h'

theorem Follows.pure {bound : Q rest} (a : α) (h : c.Faces tape rest) :
    Follows tape c (pure a) (.ok (a, ⟨rest, bound⟩)) :=
  .ok h

theorem Follows.bind {r : Reader α} {next : α → Reader β}
    {first : Except Failure (α × { rest : List Token // Q rest })}
    {next' : α × { rest : List Token // Q rest } →
      Except Failure (β × { rest : List Token // Q' rest })}
    (h : Follows tape c r first)
    (h' : ∀ a rest bound c', c'.Faces tape rest →
      Follows tape c' (next a) (next' (a, ⟨rest, bound⟩))) :
    Follows tape c (r >>= next) (first >>= next') := by
  rw [Follows] at h ⊢
  generalize run : r tape c = outcome at h
  cases h with
  | ok faces =>
    rw [Reader.bind_ok run]
    exact h' _ _ _ _ faces
  | error orderly =>
    rw [Reader.bind_error run]
    exact .error orderly

/-- The production only says again how far it read. -/
theorem Follows.again {r : Reader α} {first : Except Failure (α × { rest : List Token // Q rest })}
    {next : α × { rest : List Token // Q rest } →
      Except Failure (α × { rest : List Token // Q' rest })}
    (h : Follows tape c r first)
    (same : ∀ a rest bound, ∃ bound', next (a, ⟨rest, bound⟩) = .ok (a, ⟨rest, bound'⟩)) :
    Follows tape c r (first >>= next) := by
  rw [Follows] at h ⊢
  generalize r tape c = outcome at h
  cases h with
  | ok faces =>
    obtain ⟨bound', read⟩ := same _ _ _
    rw [show (Except.ok _ >>= next) = _ from read]
    exact .ok faces
  | error orderly => exact .error orderly

theorem throw_follows (failure : Failure) (h : c.Faces tape ts) :
    Follows tape c (throw failure : Reader α)
      (.error failure : Except Failure (α × { rest : List Token // Q rest })) :=
  .error h.orderly

/-- A count that is enough for the tokens is within the limit. -/
theorem Follows.bounded {counted : Nat → Reader α}
    {outcome : Except Failure (α × { rest : List Token // Q rest })} (h : c.Faces tape ts)
    (h' : ∀ n, ts.length ≤ n → Follows tape c (counted n) outcome) :
    Follows tape c (Reader.bounded counted) outcome := by
  refine h' tape.limit (Nat.le_trans ?_ h.enough)
  exact Nat.le.intro ((Nat.add_comm ts.length c.index).trans h.length)

/-- A round that is read passes a token, since what it reads is not empty. -/
theorem Runs.round {body : Reader α} (h : c.Faces tape ts) (less : rest.length < ts.length)
    (read : Runs tape c body a rest) : Runs tape c (Reader.round body) a rest := by
  obtain ⟨c', run, faces⟩ := read
  have before := h.length
  have behind := faces.length
  refine ⟨{ c' with history := c'.history ++ [.pass c.index c'.index] }, Reader.bind_ok run,
    faces.left, faces.ends, faces.orderly.append rfl (by simp) ?_, faces.enough⟩
  rintro _ _ ⟨⟩
  omega

theorem Follows.round {body : Reader α} {outcome : Parse α ts} (h : c.Faces tape ts)
    (follows : Follows tape c body outcome) : Follows tape c (Reader.round body) outcome := by
  rw [Follows] at follows
  generalize run : body tape c = read at follows
  cases follows with
  | @ok a c' rest less faces =>
    obtain ⟨c'', run', faces'⟩ := Runs.round h less ⟨c', run, faces⟩
    rw [Follows, run']
    exact .ok faces'
  | error orderly =>
    have got : (get : Reader Cursor) tape c = some (.ok c, c) := rfl
    rw [Follows, Reader.round, Reader.bind_ok got, Reader.bind_error run]
    exact .error orderly

end

/-! ## Single tokens -/

theorem next_drop (ts : List Token) (n : Nat) : next (ts.drop n) = ts.getD n ⟨.eof, .start⟩ := by
  induction ts generalizing n with
  | nil => cases n <;> rfl
  | cons t rest ih =>
    cases n with
    | zero => rfl
    | succ n => exact ih n

theorem lookAhead_runs {ahead : Nat} (h : c.Faces tape ts) (inside : ahead < ts.length) :
    Runs tape c (Reader.lookAhead ahead) (next (ts.drop ahead)) ts := by
  have length := h.length
  refine ⟨{ c with history := c.history ++ [.look c.index ahead] }, ?_, h.left, h.ends, ?_,
    h.enough⟩
  · have unclamped : min (c.index + ahead) (tape.tokens.length - 1) = c.index + ahead := by omega
    rw [← h.left, List.drop_drop, next_drop, ← unclamped]
    rfl
  · refine h.orderly.append rfl ?_ (by simp)
    rintro _ _ ⟨⟩
    omega

theorem look_runs (h : c.Faces tape ts) : Runs tape c Reader.look (next ts) ts :=
  lookAhead_runs h h.ends.length_pos

theorem isNext_runs (kind : TokenKind) (h : c.Faces tape ts) :
    Runs tape c (Reader.isNext kind) (decide ((next ts).kind = kind)) ts :=
  (look_runs h).then fun _ => .pure _

theorem isNext_found {kind : TokenKind} {place : Position}
    (h : c.Faces tape (⟨kind, place⟩ :: rest)) :
    Runs tape c (Reader.isNext kind) true (⟨kind, place⟩ :: rest) := by
  have found := isNext_runs kind h
  rwa [next, decide_eq_true rfl] at found

theorem isNext_absent {kind : TokenKind} (other : (next ts).kind ≠ kind) (h : c.Faces tape ts) :
    Runs tape c (Reader.isNext kind) false ts := by
  have absent := isNext_runs kind h
  rwa [decide_eq_false other] at absent

theorem advance_runs {t : Token} (h : c.Faces tape (t :: rest)) (inside : t.kind ≠ .eof) :
    Runs tape c Reader.advance t rest := by
  refine (look_runs h).then fun c' h' => ?_
  have length := h'.length
  have ends := h'.ends.behind.resolve_left fun last => inside last.1
  have some_left := ends.2.length_pos
  rw [List.length_cons] at length
  refine ⟨{ c' with index := c'.index + 1 }, ?_, ?_, ends.2, h'.orderly.advance (by omega),
    h'.enough⟩
  · simp only [next, inside]
    rfl
  · rw [← List.drop_drop, h'.left]
    rfl

theorem eat_found {kind : TokenKind} {place : Position}
    (h : c.Faces tape (⟨kind, place⟩ :: rest)) (inside : kind ≠ .eof) :
    Runs tape c (Reader.eat kind) true rest := by
  refine (isNext_found h).then fun c₁ h₁ => ?_
  rw [if_pos rfl]
  exact (advance_runs h₁ inside).then fun _ => .pure true

theorem eat_absent {kind : TokenKind} (other : (next ts).kind ≠ kind) (h : c.Faces tape ts) :
    Runs tape c (Reader.eat kind) false ts :=
  (isNext_absent other h).then fun _ => .pure false

theorem eatMark_found {mark : Punctuator} {place : Position} {bound : rest.length < ts.length}
    (taken : takeMark? mark ts = some (place, ⟨rest, bound⟩)) (h : c.Faces tape ts) :
    Runs tape c (Reader.eatMark mark) true rest := by
  obtain rfl := eq_cons_of_takeMark? taken
  exact eat_found h (by simp)

theorem eatMark_absent {mark : Punctuator} (absent : takeMark? mark ts = none)
    (h : c.Faces tape ts) : Runs tape c (Reader.eatMark mark) false ts :=
  eat_absent (ne_of_takeMark?_none absent) h

theorem skipMark_runs (mark : Punctuator) (h : c.Faces tape ts) :
    ∃ found, Runs tape c (Reader.eatMark mark) found (skipMark mark ts).val := by
  unfold skipMark
  split
  · next place rest less taken => exact ⟨true, eatMark_found taken h⟩
  · next absent => exact ⟨false, eatMark_absent absent h⟩

section

variable {α : Type} {Q : List Token → Prop}

theorem unexpected_follows (expected : Expectation) (h : c.Faces tape ts) :
    Follows tape c (Reader.unexpected expected : Reader α)
      (unexpected expected ts : Except Failure (α × { rest : List Token // Q rest })) :=
  (look_runs h).bind fun _ => throw_follows _

theorem expect_found {kind : TokenKind} {place : Position} {bound : Q rest}
    (expected : Expectation) (h : c.Faces tape (⟨kind, place⟩ :: rest)) (inside : kind ≠ .eof) :
    Follows tape c (Reader.expect kind expected) (.ok (place, ⟨rest, bound⟩)) := by
  refine (isNext_found h).yes fun c₁ h₁ => ?_
  exact (advance_runs h₁ inside).bind fun _ => .pure place

theorem expect_absent {kind : TokenKind} (other : (next ts).kind ≠ kind) (expected : Expectation)
    (h : c.Faces tape ts) :
    Follows tape c (Reader.expect kind expected)
      (unexpected expected ts : Except Failure (Position × { rest : List Token // Q rest })) :=
  (isNext_absent other h).no fun _ => unexpected_follows expected

end

theorem expectMark_follows (mark : Punctuator) (h : c.Faces tape ts) :
    Follows tape c (Reader.expectMark mark) (expectMark mark ts) := by
  unfold expectMark
  split
  · next found taken =>
    obtain ⟨place, rest, less⟩ := found
    obtain rfl := eq_cons_of_takeMark? taken
    exact expect_found _ h (by simp)
  · next absent => exact expect_absent (ne_of_takeMark?_none absent) _ h

theorem expectKeyword_follows (word : String) (h : c.Faces tape ts) :
    Follows tape c (Reader.expectKeyword word) (expectKeyword word ts) := by
  unfold expectKeyword
  split
  · next found taken =>
    obtain ⟨place, rest, less⟩ := found
    obtain rfl := eq_cons_of_takeKeyword? taken
    exact expect_found _ h (by simp)
  · next absent => exact expect_absent (ne_of_takeKeyword?_none absent) _ h

theorem expectName_follows (h : c.Faces tape ts) :
    Follows tape c Reader.expectName (expectName ts) := by
  refine (look_runs h).bind fun c₁ h₁ => ?_
  rcases named_or_unnamed ts with ⟨word, place, rest, rfl⟩ | unnamed
  · dsimp only [next]
    exact (advance_runs h₁ (by simp)).bind fun _ => .pure (word, place)
  · rw [expectName_unnamed unnamed]
    split
    · next word same => exact absurd same (unnamed word)
    · exact unexpected_follows .name h₁

theorem expectName_bind_follows {β : Type} {Q : List Token → Prop}
    {next : String × Position → Reader β}
    {next' : (String × Position) × Behind ts → Except Failure (β × { rest : List Token // Q rest })}
    (h : c.Faces tape ts)
    (h' : ∀ name place rest bound c', c'.Faces tape rest →
      Follows tape c' (next (name, place)) (next' ((name, place), ⟨rest, bound⟩))) :
    Follows tape c (Reader.expectName >>= next) (expectName ts >>= next') := by
  refine (expectName_follows h).bind ?_
  rintro ⟨name, place⟩
  exact h' name place

theorem expectName_runs {name : String} {place : Position}
    (h : c.Faces tape (⟨.name name, place⟩ :: rest)) :
    Runs tape c Reader.expectName (name, place) rest :=
  (look_runs h).then fun _ h₁ => (advance_runs h₁ (by simp)).then fun _ => .pure (name, place)

theorem description_other (other : ∀ text, (next ts).kind ≠ .string text) :
    description ts = (none, ⟨ts, Nat.le_refl _⟩) := by
  unfold description
  split
  · next text place rest => exact absurd rfl (other text)
  · rfl

theorem description_runs (h : c.Faces tape ts) :
    Runs tape c Reader.description (description ts).1 (description ts).2.val := by
  refine (look_runs h).then fun c₁ h₁ => ?_
  split
  · next text same =>
    obtain ⟨place, rest, rfl⟩ := eq_cons_of_next same (by simp)
    exact (advance_runs h₁ (by simp)).then fun _ => .pure (some text)
  · next other =>
    rw [description_other other]
    exact .pure none h₁

/-! ## Repetition -/

section

variable {α : Type}

theorem itemsUntil_follows {close : Punctuator} {bound : Nat} {reader : Reader α}
    {item : (ts : List Token) → ts.length ≤ bound → Parse α ts}
    (each : ∀ c ts fits, c.Faces tape ts → Follows tape c reader (item ts fits))
    (fits : ts.length ≤ bound) (h : c.Faces tape ts) :
    Follows tape c (Reader.bounded (Reader.itemsUntil close reader))
      (itemsUntil close bound item ts fits) := by
  refine .bounded h fun rounds enough => ?_
  fun_induction itemsUntil close bound item ts fits generalizing c rounds with
  | case1 ts fits place behind taken =>
    obtain ⟨rounds, rfl, -⟩ := h.counts enough
    exact (eatMark_found taken h).yes fun _ => .pure []
  | case2 ts fits other ih =>
    obtain ⟨rounds, rfl, fewer⟩ := h.counts enough
    refine (eatMark_absent other h).no fun c₁ h₁ => ?_
    refine (Follows.round h₁ (each c₁ ts fits h₁)).bind fun first rest less c₂ h₂ => ?_
    exact (ih rest less h₂ rounds (fewer rest less)).bind fun more _ _ _ => .pure (first :: more)

theorem optionalBlock_follows {openMark close : Punctuator} {reader : Reader α}
    {item : (ts : List Token) → Parse α ts}
    (each : ∀ c ts, c.Faces tape ts → Follows tape c reader (item ts))
    (h : c.Faces tape ts) :
    Follows tape c (Reader.optionalBlock openMark close reader)
      (optionalBlock openMark close item ts) := by
  unfold optionalBlock
  split
  · next place rest less taken =>
    refine (eatMark_found taken h).yes fun c₁ h₁ => ?_
    exact (itemsUntil_follows (fun c ts _ => each c ts) _ h₁).again fun _ _ _ => ⟨_, rfl⟩
  · next absent => exact (eatMark_absent absent h).no fun _ => .pure []

theorem barSeparated_follows {reader : Reader α} {item : (ts : List Token) → Parse α ts}
    (each : ∀ c ts, c.Faces tape ts → Follows tape c reader (item ts)) (h : c.Faces tape ts) :
    Follows tape c (Reader.bounded (Reader.barSeparated reader)) (barSeparated item ts) := by
  refine .bounded h fun rounds enough => ?_
  fun_induction barSeparated item ts generalizing c rounds with
  | case1 ts ih =>
    obtain ⟨rounds, rfl, fewer⟩ := h.counts enough
    refine (Follows.round h (each c ts h)).bind fun first rest less c₁ h₁ => ?_
    dsimp only
    split
    · next place rest' less' taken =>
      refine (eatMark_found taken h₁).yes fun c₂ h₂ => ?_
      have enough' := fewer rest' (Nat.lt_trans less' less)
      exact (ih rest less rest' less' h₂ rounds enough').bind
        fun more _ _ _ => .pure (first :: more)
    · next absent => exact (eatMark_absent absent h₁).no fun _ => .pure [first]

end

/-! ## Type references and constants -/

theorem withBang_follows (ref : TypeRef) (less : rest.length < ts.length)
    (h : c.Faces tape rest) :
    Follows tape c (Reader.withBang ref) (.ok (withBang ts ref ⟨rest, less⟩) : Parse TypeRef ts) := by
  unfold withBang
  split
  · next place rest' less' taken => exact (eatMark_found taken h).yes fun _ => .pure ref.nonNull
  · next absent => exact (eatMark_absent absent h).no fun _ => .pure ref

theorem typeRef_follows (h : c.Faces tape ts) :
    Follows tape c (Reader.bounded Reader.typeRef) (typeRef ts) := by
  refine .bounded h fun depth enough => ?_
  fun_induction typeRef ts generalizing c depth with
  | case1 ts place rest less taken ih =>
    obtain ⟨depth, rfl, fewer⟩ := h.counts enough
    refine .round h ((eatMark_found taken h).yes fun c₁ h₁ => ?_)
    refine (ih h₁ depth (fewer rest less)).bind fun inner rest₁ _ c₂ h₂ => ?_
    refine (expectMark_follows .bracketClose h₂).bind fun _ rest₂ _ c₃ h₃ => ?_
    exact withBang_follows (.list inner) _ h₃
  | case2 ts other =>
    obtain ⟨depth, rfl, -⟩ := h.counts enough
    refine .round h ((eatMark_absent other h).no fun c₁ h₁ => ?_)
    exact expectName_bind_follows h₁ fun name _ rest less _ => withBang_follows (.named name) less

theorem literal_follows {t : Token} (v : Value) (h : c.Faces tape (t :: rest))
    (inside : t.kind ≠ .eof) :
    Follows tape c (Reader.literal v)
      (.ok (v, ⟨rest, Nat.lt_succ_self rest.length⟩) : Parse Value (t :: rest)) :=
  (advance_runs h inside).bind fun _ => .pure v

theorem entry_follows {constant : Reader Value}
    (each : ∀ c rest, rest.length < ts.length → c.Faces tape rest →
      Follows tape c constant (value rest))
    (h : c.Faces tape ts) : Follows tape c (Reader.entry constant) (entry ts) := by
  refine expectName_bind_follows h fun name _ rest₁ less₁ c₁ h₁ => ?_
  refine (expectMark_follows .colon h₁).bind fun _ rest₂ less₂ c₂ h₂ => ?_
  exact (each c₂ rest₂ (Nat.lt_trans less₂ less₁) h₂).bind fun v _ _ _ => .pure (name, v)

theorem value_within (depth : Nat) (c : Cursor) (ts : List Token) (enough : ts.length ≤ depth)
    (h : c.Faces tape ts) : Follows tape c (Reader.value depth) (value ts) := by
  induction depth generalizing c ts with
  | zero =>
    obtain ⟨_, impossible, -⟩ := h.counts enough
    cases impossible
  | succ depth ih =>
    refine .round h ((look_runs h).bind fun c₁ h₁ => ?_)
    rw [value.eq_def]
    split
    -- the constants of one token
    iterate 4
      next same =>
      obtain ⟨place, rest, rfl⟩ := eq_cons_of_next same (by simp)
      exact literal_follows _ h₁ (by simp)
    · next same =>
      obtain ⟨place, rest, rfl⟩ := eq_cons_of_next same (by simp)
      have each (c : Cursor) (ts : List Token) (fits : ts.length ≤ rest.length)
          (h : c.Faces tape ts) : Follows tape c (Reader.value depth) (value ts) :=
        ih c ts (Nat.le_trans fits (Nat.le_of_succ_le_succ enough)) h
      refine (advance_runs h₁ (by simp)).bind fun c₂ h₂ => ?_
      exact (itemsUntil_follows each _ h₂).bind fun items _ _ _ => .pure (Value.list items)
    · next same =>
      obtain ⟨place, rest, rfl⟩ := eq_cons_of_next same (by simp)
      have each (c : Cursor) (ts : List Token) (fits : ts.length ≤ rest.length)
          (h : c.Faces tape ts) : Follows tape c (Reader.entry (Reader.value depth)) (entry ts) := by
        refine entry_follows (fun c behind less => ih c behind ?_) h
        have left := Nat.le_of_succ_le_succ enough
        omega
      refine (advance_runs h₁ (by simp)).bind fun c₂ h₂ => ?_
      exact (itemsUntil_follows each _ h₂).bind fun entries _ _ _ => .pure (Value.object entries)
    · next same =>
      obtain ⟨place, rest, rfl⟩ := eq_cons_of_next same (by simp)
      exact throw_follows _ h₁
    · next int float string name list object variable_use =>
      split
      · next text place rest => exact absurd rfl (int text)
      · next text place rest => exact absurd rfl (float text)
      · next text place rest => exact absurd rfl (string text)
      · next word place rest => exact absurd rfl (name word)
      · next place rest => exact absurd rfl list
      · next place rest => exact absurd rfl object
      · next place rest => exact absurd rfl variable_use
      · exact unexpected_follows .value h₁

theorem value_follows (c : Cursor) (ts : List Token) (h : c.Faces tape ts) :
    Follows tape c (Reader.bounded Reader.value) (value ts) :=
  .bounded h fun depth enough => value_within depth c ts enough h

/-! ## Directives and arguments -/

theorem argument_follows (c : Cursor) (ts : List Token) (h : c.Faces tape ts) :
    Follows tape c Reader.argument (argument ts) := by
  refine expectName_bind_follows h fun name _ rest₁ _ c₁ h₁ => ?_
  refine (expectMark_follows .colon h₁).bind fun _ rest₂ _ c₂ h₂ => ?_
  exact (value_follows c₂ rest₂ h₂).bind fun v _ _ _ => .pure _

/-- The directive behind an at sign. -/
def directiveUse (place : Position) (ts : List Token) : Parse DirectiveUse ts := do
  let ⟨(name, _), rest₁, h₁⟩ ← expectName ts
  let ⟨args, rest₂, h₂⟩ ← optionalBlock .parenOpen .parenClose argument rest₁
  return (⟨name, args, place⟩, ⟨rest₂, Nat.lt_of_le_of_lt h₂ h₁⟩)

theorem directiveUses_at {place : Position} {less : rest.length < ts.length}
    (taken : takeMark? .atSign ts = some (place, ⟨rest, less⟩)) :
    directiveUses ts = (do
      let ⟨use, rest₁, h₁⟩ ← directiveUse place rest
      let ⟨more, rest₂, h₂⟩ ← directiveUses rest₁
      return (use :: more, ⟨rest₂, Nat.le_trans h₂ (Nat.le_of_lt (Nat.lt_trans h₁ less))⟩)) := by
  rw [directiveUses, taken, directiveUse]
  dsimp only
  cases expectName rest with
  | error failure => rfl
  | ok named =>
    dsimp only [bind, Except.bind]
    cases optionalBlock .parenOpen .parenClose argument named.2.val with
    | error failure => rfl
    | ok args => rfl

theorem directiveUse_follows (place : Position) (h : c.Faces tape ts) :
    Follows tape c (Reader.directiveUse place) (directiveUse place ts) := by
  refine expectName_bind_follows h fun name _ rest₁ _ c₁ h₁ => ?_
  exact (optionalBlock_follows argument_follows h₁).bind fun args _ _ _ => .pure _

theorem directiveUses_follows (h : c.Faces tape ts) :
    Follows tape c (Reader.bounded Reader.directiveUses) (directiveUses ts) := by
  refine .bounded h fun rounds enough => ?_
  induction rounds generalizing c ts with
  | zero => exact absurd h.ends.length_pos (Nat.not_lt.mpr enough)
  | succ rounds ih =>
    cases taken : takeMark? .atSign ts with
    | none =>
      rw [directiveUses, taken]
      exact (isNext_absent (ne_of_takeMark?_none taken) h).no fun _ => .pure []
    | some found =>
      obtain ⟨place, rest, less⟩ := found
      rw [directiveUses_at taken]
      obtain rfl := eq_cons_of_takeMark? taken
      refine (isNext_found h).yes fun c₁ h₁ => (advance_runs h₁ (by simp)).bind fun c₂ h₂ => ?_
      refine (Follows.round h₂ (directiveUse_follows place h₂)).bind fun use rest₁ less₁ c₃ h₃ => ?_
      have enough' : rest₁.length ≤ rounds :=
        Nat.le_trans (Nat.le_of_lt less₁) (Nat.le_of_succ_le_succ enough)
      exact (ih h₃ enough').bind fun more _ _ _ => .pure (use :: more)

theorem defaultValue_follows (h : c.Faces tape ts) :
    Follows tape c Reader.defaultValue (defaultValue ts) := by
  unfold defaultValue
  split
  · next place rest less taken =>
    refine (eatMark_found taken h).yes fun c₁ h₁ => ?_
    exact (value_follows c₁ rest h₁).bind fun v _ _ _ => .pure (some v)
  · next absent => exact (eatMark_absent absent h).no fun _ => .pure none

theorem inputValue_follows (c : Cursor) (ts : List Token) (h : c.Faces tape ts) :
    Follows tape c Reader.inputValue (inputValue ts) := by
  refine (description_runs h).bind fun c₀ h₀ => ?_
  refine expectName_bind_follows h₀ fun name place rest₁ _ c₁ h₁ => ?_
  refine (expectMark_follows .colon h₁).bind fun _ rest₂ _ c₂ h₂ => ?_
  refine (typeRef_follows h₂).bind fun ty rest₃ _ c₃ h₃ => ?_
  refine (defaultValue_follows h₃).bind fun default rest₄ _ c₄ h₄ => ?_
  exact (directiveUses_follows h₄).bind fun uses rest₅ _ _ => .pure _

theorem field_follows (c : Cursor) (ts : List Token) (h : c.Faces tape ts) :
    Follows tape c Reader.field (field ts) := by
  refine (description_runs h).bind fun c₀ h₀ => ?_
  refine expectName_bind_follows h₀ fun name place rest₁ _ c₁ h₁ => ?_
  refine (optionalBlock_follows inputValue_follows h₁).bind fun args rest₂ _ c₂ h₂ => ?_
  refine (expectMark_follows .colon h₂).bind fun _ rest₃ _ c₃ h₃ => ?_
  refine (typeRef_follows h₃).bind fun ty rest₄ _ c₄ h₄ => ?_
  exact (directiveUses_follows h₄).bind fun uses rest₅ _ _ => .pure _

theorem enumValue_follows (c : Cursor) (ts : List Token) (h : c.Faces tape ts) :
    Follows tape c Reader.enumValue (enumValue ts) := by
  refine (description_runs h).bind fun c₀ h₀ => ?_
  refine expectName_bind_follows h₀ fun name place rest₁ _ c₁ h₁ => ?_
  dsimp only
  by_cases reserved : reservedEnumValues.contains name = true
  · rw [if_pos reserved, if_pos reserved]
    exact throw_follows _ h₁
  · rw [if_neg reserved, if_neg reserved]
    exact (directiveUses_follows h₁).bind fun uses rest₂ _ _ => .pure _

/-! ## Definitions -/

theorem isBareName_name {name : String} {place : Position}
    (h : c.Faces tape (⟨.name name, place⟩ :: rest)) :
    Runs tape c Reader.isBareName
      (!(definitionKeywords.contains name || (next rest).kind == .punct .colon))
      (⟨.name name, place⟩ :: rest) := by
  refine (look_runs h).then fun c₁ h₁ => ?_
  dsimp only [next]
  by_cases keyword : definitionKeywords.contains name = true
  · rw [if_pos keyword, keyword]
    exact .pure false h₁
  · have behind := h.ends.behind.resolve_left (by simp)
    rw [if_neg keyword, Bool.eq_false_iff.mpr keyword]
    refine (lookAhead_runs h₁ (Nat.succ_lt_succ behind.2.length_pos)).then fun c₂ h₂ => ?_
    exact .pure _ h₂

theorem isBareName_unnamed (unnamed : ∀ word, (next ts).kind ≠ .name word)
    (h : c.Faces tape ts) : Runs tape c Reader.isBareName false ts := by
  refine (look_runs h).then fun c₁ h₁ => ?_
  split
  · next word same => exact absurd same (unnamed word)
  · exact .pure false h₁

theorem moreInterfaces_follows (h : c.Faces tape ts) :
    Follows tape c (Reader.bounded Reader.moreInterfaces) (moreInterfaces ts) := by
  refine .bounded h fun rounds enough => ?_
  fun_induction moreInterfaces ts generalizing c rounds with
  | case1 place rest ih =>
    obtain ⟨rounds, rfl, fewer⟩ := h.counts enough
    refine (eat_found h (by simp)).yes fun c₁ h₁ => ?_
    refine (Follows.round h₁ (expectName_follows h₁)).bind ?_
    rintro ⟨name, place⟩ rest₁ less c₂ h₂
    have enough' := fewer rest₁ (Nat.lt_succ_of_lt less)
    exact (ih rest₁ less h₂ rounds enough').bind fun more _ _ _ => .pure (name :: more)
  | case2 name place rest ends =>
    obtain ⟨rounds, rfl, -⟩ := h.counts enough
    have other : (next (⟨.name name, place⟩ :: rest)).kind ≠ .punct .ampersand := by simp [next]
    refine (eat_absent other h).no fun c₁ h₁ => ?_
    have bare := isBareName_name h₁
    rw [ends] at bare
    exact bare.no fun _ => .pure []
  | case3 name place rest goes_on ih =>
    obtain ⟨rounds, rfl, fewer⟩ := h.counts enough
    have other : (next (⟨.name name, place⟩ :: rest)).kind ≠ .punct .ampersand := by simp [next]
    have less := Nat.lt_succ_self rest.length
    refine (eat_absent other h).no fun c₁ h₁ => ?_
    have bare := isBareName_name h₁
    rw [Bool.eq_false_iff.mpr goes_on] at bare
    refine bare.yes fun c₂ h₂ => (Runs.round h₂ less (expectName_runs h₂)).bind fun c₃ h₃ => ?_
    exact (ih h₃ rounds (fewer rest less)).bind fun more _ _ _ => .pure (name :: more)
  | case4 ts ampersand name =>
    obtain ⟨rounds, rfl, -⟩ := h.counts enough
    have no_mark : (next ts).kind ≠ .punct .ampersand := fun same => by
      obtain ⟨place, rest, rfl⟩ := eq_cons_of_next same (by simp)
      exact ampersand place rest rfl
    have unnamed : ∀ word, (next ts).kind ≠ .name word := fun word same => by
      obtain ⟨place, rest, rfl⟩ := eq_cons_of_next same (by simp)
      exact name word place rest rfl
    refine (eat_absent no_mark h).no fun c₁ h₁ => ?_
    exact (isBareName_unnamed unnamed h₁).no fun _ => .pure []

theorem implements_follows (h : c.Faces tape ts) :
    Follows tape c Reader.implements (implements ts) := by
  unfold implements
  split
  · next place rest less taken =>
    obtain rfl := eq_cons_of_takeKeyword? taken
    refine (eat_found h (by simp)).yes fun c₁ h₁ => ?_
    obtain ⟨_, skipped⟩ := skipMark_runs .ampersand h₁
    refine skipped.bind fun c₂ h₂ => ?_
    refine expectName_bind_follows h₂ fun name _ rest₁ _ c₃ h₃ => ?_
    exact (moreInterfaces_follows h₃).bind fun more _ _ _ => .pure (name :: more)
  · next absent => exact (eat_absent (ne_of_takeKeyword?_none absent) h).no fun _ => .pure []

theorem operationType_follows (c : Cursor) (ts : List Token) (h : c.Faces tape ts) :
    Follows tape c Reader.operationType (operationType ts) := by
  refine expectName_bind_follows h fun word place rest₁ _ c₁ h₁ => ?_
  dsimp only
  split
  -- the same steps follow every word
  iterate 3
    refine (Runs.pure _ h₁).bind fun c₂ h₂ => ?_
    refine (expectMark_follows .colon h₂).bind fun _ rest₂ _ c₃ h₃ => ?_
    exact expectName_bind_follows h₃ fun typeName _ rest₃ _ _ => .pure _
  · unfold Reader.operationOf
    split
    case h_4 => exact throw_follows _ h₁
    all_goals contradiction

theorem operationTypes_follows (extension : Bool) (h : c.Faces tape ts) :
    Follows tape c (Reader.operationTypes extension) (operationTypes extension ts) := by
  have inside {c : Cursor} {rest : List Token} (h : c.Faces tape rest) :
      Follows tape c (Reader.bounded (Reader.itemsUntil .braceClose Reader.operationType))
        (itemsUntil .braceClose rest.length (fun ts _ => operationType ts) rest (Nat.le_refl _)) :=
    itemsUntil_follows (fun c ts _ => operationType_follows c ts) _ h
  unfold operationTypes
  cases taken : takeMark? .braceOpen ts with
  | some found =>
    obtain ⟨place, rest, less⟩ := found
    obtain rfl := eq_cons_of_takeMark? taken
    refine (isNext_found h).bind fun c₁ h₁ => ?_
    rw [Bool.true_or, if_pos rfl, Option.isNone_some, Bool.and_false, if_neg Bool.false_ne_true]
    refine (expectMark_follows .braceOpen h₁).bind fun _ rest₁ _ c₂ h₂ => ?_
    exact (inside h₂).again fun _ _ _ => ⟨_, rfl⟩
  | none =>
    have absent := ne_of_takeMark?_none taken
    cases extension with
    | false =>
      refine (isNext_absent absent h).bind fun c₁ h₁ => ?_
      refine (expectMark_follows .braceOpen h₁).bind fun _ rest₁ _ c₂ h₂ => ?_
      exact (inside h₂).again fun _ _ _ => ⟨_, rfl⟩
    | true => exact (isNext_absent absent h).bind fun _ => .pure []

theorem schemaDef_follows (text : Option String) (extension : Bool) (h : c.Faces tape ts) :
    Follows tape c (Reader.schemaDef text extension) (schemaDef text extension ts) := by
  refine (expectKeyword_follows "schema" h).bind fun place rest₁ _ c₁ h₁ => ?_
  refine (directiveUses_follows h₁).bind fun uses rest₂ _ c₂ h₂ => ?_
  exact (operationTypes_follows extension h₂).bind fun operations rest₃ _ _ => .pure _

theorem unionMember_follows (c : Cursor) (ts : List Token) (h : c.Faces tape ts) :
    Follows tape c Reader.unionMember (unionMember ts) :=
  expectName_bind_follows h fun name _ _ _ _ => .pure name

theorem unionMembers_follows (h : c.Faces tape ts) :
    Follows tape c Reader.unionMembers (unionMembers ts) := by
  unfold unionMembers
  split
  · next place rest less taken =>
    refine (eatMark_found taken h).yes fun c₁ h₁ => ?_
    obtain ⟨_, skipped⟩ := skipMark_runs .pipe h₁
    refine skipped.bind fun c₂ h₂ => ?_
    exact (barSeparated_follows unionMember_follows h₂).again fun _ _ _ => ⟨_, rfl⟩
  · next absent => exact (eatMark_absent absent h).no fun _ => .pure []

theorem typeBody_follows (keyword : String) (place : Position) (h : c.Faces tape ts) :
    Follows tape c (Reader.typeBody keyword place) (typeBody keyword place ts) := by
  unfold typeBody
  split
  · exact (directiveUses_follows h).bind fun uses _ _ _ => .pure _
  -- objects and interfaces differ in the word alone
  iterate 2
    refine (implements_follows h).bind fun interfaces rest₁ _ c₁ h₁ => ?_
    refine (directiveUses_follows h₁).bind fun uses rest₂ _ c₂ h₂ => ?_
    exact (optionalBlock_follows field_follows h₂).bind fun fields _ _ _ => .pure _
  · refine (directiveUses_follows h).bind fun uses rest₁ _ c₁ h₁ => ?_
    exact (unionMembers_follows h₁).bind fun members _ _ _ => .pure _
  · refine (directiveUses_follows h).bind fun uses rest₁ _ c₁ h₁ => ?_
    exact (optionalBlock_follows enumValue_follows h₁).bind fun values _ _ _ => .pure _
  · refine (directiveUses_follows h).bind fun uses rest₁ _ c₁ h₁ => ?_
    exact (optionalBlock_follows inputValue_follows h₁).bind fun fields _ _ _ => .pure _
  · unfold Reader.typeBody
    split
    case h_7 => exact throw_follows _ h
    all_goals contradiction

theorem typeDef_follows (text : Option String) (h : c.Faces tape ts) :
    Follows tape c (Reader.typeDef text) (typeDef text ts) := by
  refine expectName_bind_follows h fun keyword place rest₁ _ c₁ h₁ => ?_
  refine expectName_bind_follows h₁ fun name _ rest₂ _ c₂ h₂ => ?_
  exact (typeBody_follows keyword place h₂).bind fun body _ _ _ => .pure _

theorem directiveLocation_follows (c : Cursor) (ts : List Token) (h : c.Faces tape ts) :
    Follows tape c Reader.directiveLocation (directiveLocation ts) := by
  refine expectName_bind_follows h fun name place rest _ c₁ h₁ => ?_
  dsimp only
  by_cases known : directiveLocations.contains name = true
  · rw [if_pos known, if_pos known]
    exact .pure name h₁
  · rw [if_neg known, if_neg known]
    exact throw_follows _ h₁

theorem repeatable_runs (h : c.Faces tape ts) :
    Runs tape c (Reader.eatKeyword "repeatable") (repeatable ts).1 (repeatable ts).2.val := by
  unfold repeatable
  split
  · next place rest less taken =>
    obtain rfl := eq_cons_of_takeKeyword? taken
    exact eat_found h (by simp)
  · next absent => exact eat_absent (ne_of_takeKeyword?_none absent) h

theorem directiveDef_follows (text : Option String) (h : c.Faces tape ts) :
    Follows tape c (Reader.directiveDef text) (directiveDef text ts) := by
  refine (expectKeyword_follows "directive" h).bind fun place rest₁ _ c₁ h₁ => ?_
  refine (expectMark_follows .atSign h₁).bind fun _ rest₂ _ c₂ h₂ => ?_
  refine expectName_bind_follows h₂ fun name _ rest₃ _ c₃ h₃ => ?_
  refine (optionalBlock_follows inputValue_follows h₃).bind fun args rest₄ _ c₄ h₄ => ?_
  refine (repeatable_runs h₄).bind fun c₅ h₅ => ?_
  refine (expectKeyword_follows "on" h₅).bind fun _ rest₆ _ c₆ h₆ => ?_
  obtain ⟨_, skipped⟩ := skipMark_runs .pipe h₆
  refine skipped.bind fun c₇ h₇ => ?_
  exact (barSeparated_follows directiveLocation_follows h₇).bind fun locations _ _ _ => .pure _

theorem extension_follows (h : c.Faces tape ts) :
    Follows tape c Reader.extension (extension ts) := by
  unfold extension
  split
  · next found taken =>
    obtain ⟨place, rest, less⟩ := found
    obtain rfl := eq_cons_of_takeKeyword? taken
    refine (isNext_found h).yes fun c₁ h₁ => ?_
    exact (schemaDef_follows none true h₁).bind fun schema _ _ _ => .pure _
  · next absent =>
    refine (isNext_absent (ne_of_takeKeyword?_none absent) h).no fun c₁ h₁ => ?_
    exact (typeDef_follows none h₁).bind fun type _ _ _ => .pure _

theorem definition_follows (h : c.Faces tape ts) :
    Follows tape c Reader.definition (definition ts) := by
  refine (description_runs h).bind fun c₁ h₁ => (look_runs h₁).bind fun c₂ h₂ => ?_
  unfold definition
  cases described : description ts with
  | mk text found =>
    obtain ⟨rest, bound⟩ := found
    rw [described] at h₂
    dsimp only at h₂ ⊢
    rcases named_or_unnamed rest with ⟨word, place, behind, rfl⟩ | unnamed
    · dsimp only [next]
      split
      · next same =>
        cases same
        exact (schemaDef_follows text false h₂).bind fun schema _ _ _ => .pure _
      iterate 6
        next same =>
        cases same
        exact (typeDef_follows text h₂).bind fun type _ _ _ => .pure _
      · next same =>
        cases same
        exact (directiveDef_follows text h₂).bind fun directive _ _ _ => .pure _
      · next same =>
        cases same
        cases text with
        | some text => exact (look_runs h₂).bind fun _ => throw_follows _
        | none =>
          refine (advance_runs h₂ (by simp)).bind fun c₃ h₃ => ?_
          exact (extension_follows h₃).again fun _ _ _ => ⟨_, rfl⟩
      · unfold Reader.definitionFrom
        split
        case h_10 => exact unexpected_follows .definition h₂
        all_goals contradiction
    · split
      · next word same => exact absurd same (unnamed word)
      · split
        case h_10 => exact unexpected_follows .definition h₂
        all_goals
          next same =>
          exact absurd same (unnamed _)

/-- The cursor reads on to a fault or to the end of the source. -/
theorem definitions_within (rounds : Nat) (enough : ts.length ≤ rounds) (h : c.Faces tape ts) :
    ∃ c', Reader.definitions rounds tape c = some (definitions ts, c') ∧
      c'.Orderly tape.tokens.length ∧
      ∀ found, definitions ts = .ok found → c'.index + 1 = tape.tokens.length := by
  induction ts using definitions.induct generalizing c rounds with
  | case1 ts finished =>
    obtain ⟨rounds, rfl, -⟩ := h.counts enough
    obtain ⟨c₁, at_end, h₁⟩ := isNext_runs .eof h
    rw [show decide _ = true from finished] at at_end
    rw [definitions, if_pos finished]
    refine ⟨c₁, Reader.bind_ok at_end, h₁.orderly, fun _ _ => ?_⟩
    rw [← h₁.length, h.ends.length_eq_one (of_decide_eq_true finished)]
  | case2 ts unfinished ih =>
    obtain ⟨rounds, rfl, fewer⟩ := h.counts enough
    obtain ⟨c₁, at_end, h₁⟩ := isNext_absent (fun ends => unfinished (decide_eq_true ends)) h
    have follows := Follows.round h₁ (definition_follows h₁)
    have looked : Reader.definitions (rounds + 1) tape c = (do
        let first ← Reader.round Reader.definition
        return first :: (← Reader.definitions rounds) : Reader (List Definition)) tape c₁ :=
      Reader.bind_ok at_end
    rw [looked, definitions, if_neg unfinished]
    rw [Follows] at follows
    generalize definition ts = outcome at follows ⊢
    generalize first_read : Reader.round Reader.definition tape c₁ = first_outcome at follows
    cases follows with
    | error orderly =>
      exact ⟨_, Reader.bind_error first_read, orderly, fun found read => by cases read⟩
    | @ok first c₂ rest less h₂ =>
      obtain ⟨c₃, more_read, orderly, ends⟩ := ih rest less rounds (fewer rest less) h₂
      rw [Reader.bind_ok first_read]
      dsimp only [bind, Except.bind]
      cases more : definitions rest with
      | error failure =>
        rw [more] at more_read
        exact ⟨c₃, Reader.bind_error more_read, orderly, fun found read => by cases read⟩
      | ok found =>
        rw [more] at more_read
        exact ⟨c₃, Reader.bind_ok more_read, orderly, fun _ _ => ends found more⟩

/-- Whatever stands in front of the end of the source, reading ends, with what the grammar finds: no
loop goes round and nothing is inside itself more often than there are tokens. No look goes past the
end and the index never goes back. Each round of a loop, each type reference and each constant
passes a token, but for one that is not finished because of a fault. Where there is no fault, the
cursor is at the end of the source when reading ends. -/
theorem reading_progresses {tokens : List Token} {limit : Nat} (ends : EndsOnce tokens)
    (enough : tokens.length ≤ limit) :
    ∃ c, Reader.bounded Reader.definitions ⟨tokens, limit⟩ .start = some (definitions tokens, c) ∧
      c.Orderly tokens.length ∧
      ∀ found, definitions tokens = .ok found → c.index + 1 = tokens.length :=
  definitions_within limit enough (.start ends enough)

/-- The loop over the fields waits for a brace, and the end of the source is no field. -/
theorem unclosed_fields_end :
    EndsOnce [⟨.name "type", ⟨1, 1⟩⟩, ⟨.name "A", ⟨1, 6⟩⟩, ⟨.punct .braceOpen, ⟨1, 8⟩⟩,
      ⟨.eof, ⟨1, 9⟩⟩] ∧
    ∃ c, Reader.bounded Reader.definitions ⟨[⟨.name "type", ⟨1, 1⟩⟩, ⟨.name "A", ⟨1, 6⟩⟩,
        ⟨.punct .braceOpen, ⟨1, 8⟩⟩, ⟨.eof, ⟨1, 9⟩⟩], 4⟩ .start =
        some (.error (⟨1, 9⟩, .unexpected .name .eof), c) ∧ c.Orderly 4 := by
  have ends : EndsOnce [⟨.name "type", ⟨1, 1⟩⟩, ⟨.name "A", ⟨1, 6⟩⟩, ⟨.punct .braceOpen, ⟨1, 8⟩⟩,
      ⟨.eof, ⟨1, 9⟩⟩] := ⟨[_, _, _], _, rfl, by decide⟩
  obtain ⟨c, read, orderly, -⟩ := reading_progresses ends (Nat.le_refl 4)
  have fault : definitions [⟨.name "type", ⟨1, 1⟩⟩, ⟨.name "A", ⟨1, 6⟩⟩,
      ⟨.punct .braceOpen, ⟨1, 8⟩⟩, ⟨.eof, ⟨1, 9⟩⟩] =
      .error (⟨1, 9⟩, .unexpected .name .eof) := by cbv
  rw [fault] at read
  exact ⟨ends, c, read, orderly⟩

/-- The directive is passed behind its at sign, and then the definition that it ends. -/
example :
    (Reader.bounded Reader.definitions ⟨[⟨.name "scalar", ⟨1, 1⟩⟩, ⟨.name "A", ⟨1, 8⟩⟩,
        ⟨.punct .atSign, ⟨1, 10⟩⟩, ⟨.name "b", ⟨1, 11⟩⟩, ⟨.eof, ⟨1, 12⟩⟩], 5⟩ .start).map
      (fun (_, c) => (c.index, c.history.filter fun | .pass .. => true | .look .. => false)) =
      some (4, [.pass 3 4, .pass 0 4]) := by
  rfl

end SchemaCompiler.Grammar
