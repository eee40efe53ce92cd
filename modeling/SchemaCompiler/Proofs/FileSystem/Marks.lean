import SchemaCompiler.Proofs.FileSystem.Trial

/-!
The changes that programs make to files.

What a program ends with can be tied to the changes that its own actions make, whatever the answers.
Interleaved programs leave one history, in which every change is marked with the program that made
it.
-/

namespace SchemaCompiler

open FileEvent

variable {σ α β : Type}

namespace Program

/-- Whatever the answers, the program ends with a result that goes with the changes it makes. -/
def Leaves : (fits : List FileEvent → α → Prop) → Program α → Prop
  | fits, .done a => fits [] a
  | fits, .ask action next => ∀ answer,
    Leaves (fun more a => fits (ofAction action answer ++ more) a) (next answer)

theorem Leaves.bind {before : List FileEvent → β → Prop} {fits : List FileEvent → α → Prop}
    {p : Program β} {k : β → Program α} (h : Leaves before p)
    (later : ∀ events b, before events b → Leaves (fun more a => fits (events ++ more) a) (k b)) :
    Leaves fits (p.bind k) := by
  induction p generalizing before fits with
  | done b => exact later [] b h
  | ask action next ih =>
    intro answer
    refine ih answer (h answer) fun events b holds => ?_
    simpa only [List.append_assoc] using later _ b holds

theorem Leaves.map {before : List FileEvent → β → Prop} {fits : List FileEvent → α → Prop}
    {p : Program β} {f : β → α} (h : Leaves before p)
    (later : ∀ events b, before events b → fits events (f b)) :
    Leaves fits (p.bind fun b => .done (f b)) := by
  refine h.bind fun events b holds => ?_
  rw [Leaves, List.append_nil]
  exact later events b holds

end Program

open Program (Leaves)

/-! ## Marked histories -/

/-- The changes that are marked with a program. -/
def changesOf (i : Nat) (marks : List (Nat × FileEvent)) : List FileEvent :=
  (marks.filter (·.1 = i)).map Prod.snd

/-- The marked changes are those noted so far, and each program goes on to a result that goes with
all that it changes. -/
structure Marked (fits : List FileEvent → α → Prop) (marks : List (Nat × FileEvent))
    (programs : List (Program α)) (t : Trial σ) : Prop where
  events : t.events = marks.map Prod.snd
  inside : ∀ mark ∈ marks, mark.1 < programs.length
  leaves : ∀ {i : Nat} {p : Program α}, programs[i]? = some p →
    Leaves (fun more a => fits (changesOf i marks ++ more) a) p

section

variable {fits : List FileEvent → α → Prop} {marks : List (Nat × FileEvent)}
  {programs : List (Program α)} {t t' : Trial σ} {i : Nat}

theorem Marked.nothing (unnoted : t.events = []) (leaves : ∀ p ∈ programs, Leaves fits p) :
    Marked fits [] programs t :=
  ⟨unnoted, List.forall_mem_nil _, fun here => leaves _ (List.mem_of_getElem? here)⟩

theorem changesOf_append (i j : Nat) (marks : List (Nat × FileEvent)) (more : List FileEvent) :
    changesOf j (marks ++ more.map (Prod.mk i)) =
      if i = j then changesOf j marks ++ more else changesOf j marks := by
  rw [changesOf, List.filter_append, List.map_append, List.filter_map, ← changesOf]
  by_cases own : i = j
  · simp [own, Function.comp_def]
  · simp [own, Function.comp_def]

/-- The next action of one program. -/
theorem Marked.step {action : Action} {next : action.Answer → Program α} {answer : action.Answer}
    (marked : Marked fits marks programs t) (here : programs[i]? = some (.ask action next))
    (events : t'.events = t.events ++ ofAction action answer) :
    Marked fits (marks ++ (ofAction action answer).map (Prod.mk i)) (programs.set i (next answer))
      t' := by
  have inside : i < programs.length := (List.getElem?_eq_some_iff.mp here).1
  refine ⟨?_, ?_, ?_⟩
  · rw [events, marked.events]
    simp [Function.comp_def]
  · intro mark member
    rw [List.length_set]
    rcases List.mem_append.mp member with before | now
    · exact marked.inside mark before
    · obtain ⟨event, -, rfl⟩ := List.mem_map.mp now
      exact inside
  · intro j p there
    rw [changesOf_append]
    by_cases same : i = j
    · subst same
      rw [List.getElem?_set_self inside] at there
      cases there
      have later := marked.leaves here answer
      simpa only [if_true, List.append_assoc] using later
    · rw [List.getElem?_set_ne same] at there
      rw [if_neg same]
      exact marked.leaves there

/-- Once the programs have ended, their results go with what they changed. -/
theorem Marked.fits_of_done {results : List α} {a : α}
    (marked : Marked fits marks (results.map .done) t) (here : results[i]? = some a) :
    fits (changesOf i marks) a := by
  have ended : (results.map Program.done)[i]? = some (.done a) := by simp [here]
  have holds := marked.leaves ended
  rwa [Leaves, List.append_nil] at holds

end

/-! ## Files of one program -/

/-- Every handle that the history uses was opened in it. -/
def FileEvent.Owned (events : List FileEvent) : Prop :=
  ∀ event ∈ events, ∃ path, .opened path event.handle ∈ events

section

variable {marks rest : List (Nat × FileEvent)} {i j : Nat} {path place : Path} {handle : Handle}
  {after : List FileEvent}

theorem mem_changesOf {event : FileEvent} : event ∈ changesOf i marks ↔ (i, event) ∈ marks := by
  simp [changesOf]

/-- One handle is opened by one program. -/
theorem opener_unique (apart : Apart (marks.map Prod.snd)) (mine : (i, .opened path handle) ∈ marks)
    (theirs : (j, .opened place handle) ∈ marks) : i = j := by
  by_contra different
  rw [Apart, openings, List.filterMap_map, List.pairwise_filterMap] at apart
  have symm : Std.Symm fun a b : Nat × FileEvent => ∀ x, (opening? ∘ Prod.snd) a = some x →
      ∀ y, (opening? ∘ Prod.snd) b = some y → Strangers x y :=
    ⟨fun a b strangers x hx y hy => Std.Symm.symm _ _ (strangers y hy x hx)⟩
  have strangers := apart.forall mine theirs (by simp [different]) _ rfl _ rfl
  exact strangers.2 rfl

/-- A handle is used by the program that opened it. -/
theorem user_eq (apart : Apart (marks.map Prod.snd))
    (owned : ∀ mark ∈ marks, Owned (changesOf mark.1 marks))
    (mine : (i, .opened path handle) ∈ marks) {mark : Nat × FileEvent} (used : mark ∈ marks)
    (same : mark.2.handle = handle) : mark.1 = i := by
  obtain ⟨place, opened⟩ := owned mark used mark.2 (mem_changesOf.mpr used)
  rw [same, mem_changesOf] at opened
  exact opener_unique apart opened mine

/-- What a program does after it has opened a file stands in the history behind that opening. -/
theorem changesOf_split {before : List FileEvent}
    (split : changesOf i marks = before ++ .opened path handle :: after) :
    ∃ front rest, marks = front ++ (i, .opened path handle) :: rest ∧ changesOf i rest = after := by
  obtain ⟨front, back, whole, -, tail⟩ := List.map_eq_append_iff.mp split
  obtain ⟨mark, rest, rfl, event, rfl⟩ := List.map_eq_cons_iff.mp tail
  obtain ⟨front', back', rfl, -, kept⟩ := List.filter_eq_append_iff.mp whole
  obtain ⟨passed, rest', rfl, -, own, rfl⟩ := List.filter_eq_cons_iff.mp kept
  obtain ⟨j, _⟩ := mark
  obtain rfl : j = i := of_decide_eq_true own
  obtain rfl : _ = FileEvent.opened path handle := event
  exact ⟨front' ++ passed, rest', (List.append_assoc _ _ _).symm, rfl⟩

/-- What a history says of a handle, if only one program uses it. -/
theorem on_changesOf (only : ∀ mark ∈ rest, mark.2.handle = handle → mark.1 = i) :
    on handle (changesOf i rest) = on handle (rest.map Prod.snd) := by
  rw [changesOf, on, on, List.filter_map, List.filter_map, List.filter_filter]
  refine congrArg (List.map Prod.snd) (List.filter_congr fun mark member => ?_)
  have known := only mark member
  simp only [Function.comp_apply, Bool.and_eq_left_iff_imp, decide_eq_true_eq]
  exact known

end

end SchemaCompiler
