import Mathlib.Data.List.DropRight
import Mathlib.Data.List.Pairwise
import SchemaCompiler.Proofs.FileSystem.View

/-!
What files hold after a history of changes.

A history lists the changes that succeeded: files opened, data written, flushed and dropped. As long
as no place and no handle is opened twice, a file holds what was written through its own handle, up
to the last flush while it is open and all of it once it is dropped, whatever stands between in the
history. That is decided by the part of the history that is about the handle.
-/

namespace SchemaCompiler

/-- A change to files or to open files that succeeded. -/
inductive FileEvent where
  | opened (path : Path) (handle : Handle)
  | wrote (handle : Handle) (data : Bytes)
  | flushed (handle : Handle)
  | dropped (handle : Handle)
deriving DecidableEq, Repr

namespace FileEvent

def handle : FileEvent → Handle
  | opened _ handle | wrote handle _ | flushed handle | dropped handle => handle

/-- The place and the handle of a file that the event opens. -/
def opening? : FileEvent → Option (Path × Handle)
  | opened path handle => some (path, handle)
  | _ => none

/-- What the event writes through a handle. -/
def dataFor (handle : Handle) : FileEvent → Bytes
  | wrote other data => if other = handle then data else []
  | _ => []

/-- The files that a history opens. -/
def openings (events : List FileEvent) : List (Path × Handle) := events.filterMap opening?

/-- All that is written through a handle. -/
def written (handle : Handle) (events : List FileEvent) : Bytes := events.flatMap (dataFor handle)

/-- The history up to the last flush of a handle, which is nothing if there was none. -/
def untilFlushed (handle : Handle) (events : List FileEvent) : List FileEvent :=
  events.rdropWhile (· ≠ .flushed handle)

/-- What a file shows after the history behind its opening: all that was written through its handle
once it is dropped, and before that what was written up to the last flush. -/
def shown (handle : Handle) (events : List FileEvent) : Bytes :=
  written handle (if .dropped handle ∈ events then events else untilFlushed handle events)

/-- The part of a history that is about a handle. -/
def on (handle : Handle) (events : List FileEvent) : List FileEvent :=
  events.filter (·.handle = handle)

/-- What an event does to the files and the open files. -/
inductive Does : FileEvent → FileState → FileState → Prop where
  | opens {f : FileState} {handle : Handle} (free : f.desk handle = none) (path : Path) :
      Does (.opened path handle) f ((f.put path []).hold handle (some (path, [])))
  | writes {f : FileState} {handle : Handle} {path : Path} {before : Bytes}
      (here : f.desk handle = some (path, before)) (data : Bytes) :
      Does (.wrote handle data) f (f.hold handle (some (path, before ++ data)))
  | flushes {f : FileState} {handle : Handle} {path : Path} {data : Bytes}
      (here : f.desk handle = some (path, data)) : Does (.flushed handle) f (f.put path data)
  | drops {f : FileState} {handle : Handle} {path : Path} {data : Bytes}
      (here : f.desk handle = some (path, data)) :
      Does (.dropped handle) f ((f.put path data).hold handle none)
  | dropsNothing {f : FileState} {handle : Handle} (free : f.desk handle = none) :
      Does (.dropped handle) f f

/-- A history leads from files to files. -/
inductive Leads (f : FileState) : List FileEvent → FileState → Prop where
  | nothing : Leads f [] f
  | event {events : List FileEvent} {event : FileEvent} {g g' : FileState}
      (before : Leads f events g) (does : event.Does g g') : Leads f (events ++ [event]) g'

variable {f g g' : FileState} {events before after : List FileEvent} {event : FileEvent}
  {path place : Path} {handle other : Handle} {data : Bytes}

/-! ## Histories -/

theorem written_concat (handle : Handle) (events : List FileEvent) (event : FileEvent) :
    written handle (events ++ [event]) = written handle events ++ event.dataFor handle := by
  rw [written, List.flatMap_append, List.flatMap_singleton]
  rfl

theorem openings_append (before after : List FileEvent) :
    openings (before ++ after) = openings before ++ openings after := List.filterMap_append

theorem mem_openings (member : .opened path handle ∈ events) : (path, handle) ∈ openings events :=
  List.mem_filterMap.mpr ⟨_, member, rfl⟩

theorem untilFlushed_flush (handle : Handle) (events : List FileEvent) :
    untilFlushed handle (events ++ [.flushed handle]) = events ++ [.flushed handle] :=
  List.rdropWhile_concat_neg _ _ _ (by simp)

theorem untilFlushed_other (different : event ≠ .flushed handle) :
    untilFlushed handle (events ++ [event]) = untilFlushed handle events :=
  List.rdropWhile_concat_pos _ _ _ (by simpa using different)

theorem untilFlushed_append {more : List FileEvent} (unflushed : .flushed handle ∉ more) :
    untilFlushed handle (events ++ more) = untilFlushed handle events := by
  induction more using List.reverseRecOn with
  | nil => rw [List.append_nil]
  | append_singleton more event ih =>
    rw [List.mem_append, List.mem_singleton, not_or] at unflushed
    rw [← List.append_assoc, untilFlushed_other (Ne.symm unflushed.2), ih unflushed.1]

theorem dataFor_of_ne (different : event.handle ≠ handle) : event.dataFor handle = [] := by
  cases event with
  | wrote other data => exact if_neg different
  | _ => rfl

theorem on_concat (handle : Handle) (events : List FileEvent) (event : FileEvent) :
    on handle (events ++ [event]) =
      if event.handle = handle then on handle events ++ [event] else on handle events := by
  by_cases own : event.handle = handle <;> simp [on, own]

theorem written_on (handle : Handle) (events : List FileEvent) :
    written handle (on handle events) = written handle events := by
  induction events using List.reverseRecOn with
  | nil => rfl
  | append_singleton events event ih =>
    rw [on_concat, written_concat]
    split
    · rw [written_concat, ih]
    · next other => rw [ih, dataFor_of_ne other, List.append_nil]

theorem untilFlushed_on (handle : Handle) (events : List FileEvent) :
    untilFlushed handle (on handle events) = on handle (untilFlushed handle events) := by
  induction events using List.reverseRecOn with
  | nil => rfl
  | append_singleton events event ih =>
    by_cases flush : event = .flushed handle
    · subst flush
      have own : on handle (events ++ [.flushed handle]) = on handle events ++ [.flushed handle] :=
        (on_concat _ _ _).trans (if_pos rfl)
      rw [untilFlushed_flush, own, untilFlushed_flush]
    · rw [untilFlushed_other flush, on_concat, ← ih]
      split
      · exact untilFlushed_other flush
      · rfl

/-- What a file shows depends on the part of the history that is about its handle. -/
theorem shown_on (handle : Handle) (events : List FileEvent) :
    shown handle (on handle events) = shown handle events := by
  have dropped : .dropped handle ∈ on handle events ↔ .dropped handle ∈ events := by
    simp [on, FileEvent.handle]
  unfold shown
  simp only [dropped]
  split
  · exact written_on handle events
  · rw [untilFlushed_on, written_on]

theorem Leads.inv (h : Leads f (events ++ [event]) g') :
    ∃ g, Leads f events g ∧ event.Does g g' := by
  generalize shape : events ++ [event] = whole at h
  cases h with
  | nothing => simp at shape
  | event before does =>
    obtain ⟨rfl, last⟩ := List.append_inj' shape rfl
    cases last
    exact ⟨_, before, does⟩

/-- A file that is open was open before, or the history opens it. -/
theorem Leads.desk (h : Leads f events g) (new : f.desk handle = none)
    (held : g.desk handle = some (place, data)) : (place, handle) ∈ openings events := by
  induction h generalizing data with
  | nothing => cases new.symm.trans held
  | @event events event g g' before does ih =>
    rw [openings_append, List.mem_append]
    cases does with
    | @opens _ other free path =>
      by_cases same : handle = other
      · subst same
        simp only [FileState.hold_desk, Function.update_self, Option.some.injEq,
          Prod.mk.injEq] at held
        exact .inr (held.1 ▸ List.mem_singleton_self _)
      · exact .inl (ih (by simpa [same] using held))
    | @writes _ other path content here data =>
      by_cases same : handle = other
      · subst same
        simp only [FileState.hold_desk, Function.update_self, Option.some.injEq,
          Prod.mk.injEq] at held
        exact .inl (ih (held.1 ▸ here))
      · exact .inl (ih (by simpa [same] using held))
    | flushes here => exact .inl (ih held)
    | @drops _ other path content here =>
      by_cases same : handle = other
      · subst same
        simp at held
      · exact .inl (ih (by simpa [same] using held))
    | dropsNothing free => exact .inl (ih held)

/-! ## One file -/

/-- What is known of an opened file from the history behind its opening. -/
inductive Shows (path : Path) (handle : Handle) (after : List FileEvent) (f : FileState) :
    Prop where
  | held (still : .dropped handle ∉ after)
      (desk : f.desk handle = some (path, written handle after))
      (contents : f.contents path = some (written handle (untilFlushed handle after)))
  | gone (dropped : .dropped handle ∈ after) (desk : f.desk handle = none)
      (contents : f.contents path = some (written handle after))

theorem Shows.contents_eq (h : Shows path handle after f) :
    f.contents path = some (shown handle after) := by
  cases h with
  | held still desk contents => rw [shown, if_neg still, contents]
  | gone dropped desk contents => rw [shown, if_pos dropped, contents]

theorem shows_opened (f : FileState) (path : Path) (handle : Handle) :
    Shows path handle [] ((f.put path []).hold handle (some (path, []))) := by
  refine .held List.not_mem_nil (by simp [written]) ?_
  rw [FileState.hold_contents, FileState.put_contents, if_pos path.same_refl]
  rfl

/-- An event on another handle says nothing about the file. -/
theorem Shows.aside (h : Shows path handle after f) (different : event.handle ≠ handle)
    (desk : g.desk handle = f.desk handle) (contents : g.contents path = f.contents path) :
    Shows path handle (after ++ [event]) g := by
  have silent : written handle (after ++ [event]) = written handle after := by
    rw [written_concat, dataFor_of_ne different, List.append_nil]
  have unflushed : untilFlushed handle (after ++ [event]) = untilFlushed handle after := by
    refine untilFlushed_other ?_
    rintro rfl
    exact different rfl
  cases h with
  | held still open_ shown =>
    have still' : .dropped handle ∉ after ++ [event] := by
      rw [List.mem_append, List.mem_singleton, not_or]
      refine ⟨still, ?_⟩
      rintro rfl
      exact different rfl
    exact .held still' (by rw [desk, open_, silent]) (by rw [contents, shown, unflushed])
  | gone dropped closed shown =>
    exact .gone (List.mem_append_left _ dropped) (desk.trans closed)
      (by rw [contents, shown, silent])

/-- An event on the handle of a file that is open. -/
theorem Shows.use (does : event.Does f g) (own : event.handle = handle)
    (again : event.opening? = none) (still : .dropped handle ∉ after)
    (desk : f.desk handle = some (path, written handle after))
    (contents : f.contents path = some (written handle (untilFlushed handle after))) :
    Shows path handle (after ++ [event]) g := by
  subst own
  cases does with
  | opens => cases again
  | @writes _ handle place content here data =>
    cases here.symm.trans desk
    refine .held (by simpa [FileEvent.handle] using still) ?_ ?_
    · simp [written_concat, dataFor, FileEvent.handle]
    · rwa [untilFlushed_other (by simp)]
  | @flushes _ handle place content here =>
    cases here.symm.trans desk
    have silent : written handle (after ++ [.flushed handle]) = written handle after := by
      rw [written_concat]
      exact List.append_nil _
    refine .held (by simpa [FileEvent.handle] using still) (desk.trans ?_) ?_
    · rw [FileEvent.handle, silent]
    rw [FileState.put_contents, if_pos path.same_refl, FileEvent.handle, untilFlushed_flush, silent]
  | @drops _ handle place content here =>
    cases here.symm.trans desk
    refine .gone (by simp [FileEvent.handle]) (by simp [FileEvent.handle]) ?_
    rw [FileState.hold_contents, FileState.put_contents, if_pos path.same_refl, FileEvent.handle,
      written_concat]
    exact congrArg some (List.append_nil _).symm
  | dropsNothing free => cases free.symm.trans desk

/-- What a file shows goes on with every event but another opening of its place or its handle. -/
theorem Shows.concat (h : Shows path handle after f) (does : event.Does f g)
    (opening : ∀ opened, event.opening? = some opened →
      path.same opened.1 = false ∧ opened.2 ≠ handle)
    (apart : event.handle ≠ handle → ∀ place data, f.desk event.handle = some (place, data) →
      path.same place = false) :
    Shows path handle (after ++ [event]) g := by
  by_cases own : event.handle = handle
  · have again : event.opening? = none := by
      cases event with
      | opened place other => exact absurd own (opening _ rfl).2
      | _ => rfl
    cases h with
    | held still desk contents => exact Shows.use does own again still desk contents
    | gone dropped desk contents =>
      -- only another drop is possible, and it does nothing
      subst own
      cases does with
      | opens => cases again
      | dropsNothing free =>
        refine .gone (List.mem_append_left _ dropped) desk ?_
        rw [contents, written_concat]
        exact congrArg some (List.append_nil _).symm
      | writes here => cases here.symm.trans desk
      | flushes here => cases here.symm.trans desk
      | drops here => cases here.symm.trans desk
  · have away := apart own
    cases does with
    | @opens other free place =>
      have elsewhere := (opening _ rfl).1
      refine h.aside own ?_ ?_
      · exact Function.update_of_ne (Ne.symm own) _ _
      · rw [FileState.hold_contents, FileState.put_contents, elsewhere]
        rfl
    | writes here => exact h.aside own (Function.update_of_ne (Ne.symm own) _ _) rfl
    | flushes here =>
      refine h.aside own rfl ?_
      rw [FileState.put_contents, away _ _ here]
      rfl
    | drops here =>
      refine h.aside own (Function.update_of_ne (Ne.symm own) _ _) ?_
      rw [FileState.hold_contents, FileState.put_contents, away _ _ here]
      rfl
    | dropsNothing free => exact h.aside own rfl rfl

/-! ## Files that are kept apart -/

/-- Two opened files have neither the place nor the handle in common. -/
def Strangers (a b : Path × Handle) : Prop := a.1.same b.1 = false ∧ a.2 ≠ b.2

instance : Std.Symm Strangers where
  symm a b strangers := ⟨(Path.same_comm b.1 a.1).trans strangers.1, strangers.2.symm⟩

/-- No place and no handle is opened twice. -/
def Apart (events : List FileEvent) : Prop := (openings events).Pairwise Strangers

/-- The history uses no file that was open before it. -/
def Fresh (f : FileState) (events : List FileEvent) : Prop :=
  ∀ event ∈ events, f.desk event.handle = none

/-- An opened file shows what was written through its handle. -/
theorem Leads.shows (h : Leads f (before ++ .opened path handle :: after) g)
    (apart : Apart (before ++ .opened path handle :: after))
    (fresh : Fresh f (before ++ .opened path handle :: after)) : Shows path handle after g := by
  induction after using List.reverseRecOn generalizing g with
  | nil =>
    obtain ⟨middle, -, does⟩ := h.inv
    cases does with
    | opens free path => exact shows_opened middle path handle
  | append_singleton after event ih =>
    have shape : before ++ .opened path handle :: (after ++ [event]) =
        (before ++ .opened path handle :: after) ++ [event] := by
      rw [List.append_assoc, List.cons_append]
    rw [shape] at h apart fresh
    obtain ⟨middle, led, does⟩ := h.inv
    rw [Apart, openings_append, List.pairwise_append] at apart
    obtain ⟨earlier, -, later⟩ := apart
    have known := ih led earlier fun other member => fresh other (List.mem_append_left _ member)
    have mine : (path, handle) ∈ openings (before ++ .opened path handle :: after) :=
      mem_openings (by simp)
    refine known.concat does ?_ ?_
    · intro opened now
      have member : opened ∈ openings [event] := List.mem_filterMap.mpr ⟨event, by simp, now⟩
      obtain ⟨place, number⟩ := later _ mine _ member
      exact ⟨place, Ne.symm number⟩
    · intro different place data held
      have theirs := led.desk (fresh event (by simp)) held
      exact (earlier.forall mine theirs fun same => different (congrArg Prod.snd same).symm).1

/-- A place that was not opened holds what it held. -/
theorem Leads.untouched (h : Leads f events g) (fresh : Fresh f events)
    (unopened : ∀ opened ∈ openings events, path.same opened.1 = false) :
    g.contents path = f.contents path := by
  induction h with
  | nothing => rfl
  | @event events event g g' led does ih =>
    have before := ih (fun other member => fresh other (List.mem_append_left _ member))
      fun opened member => unopened opened
        (by rw [openings_append]; exact List.mem_append_left _ member)
    have away {place : Path} {data : Bytes} (held : g.desk event.handle = some (place, data)) :
        path.same place = false := by
      refine unopened (place, event.handle) ?_
      rw [openings_append]
      exact List.mem_append_left _ (led.desk (fresh event (by simp)) held)
    cases does with
    | @opens _ handle free place =>
      have elsewhere : path.same place = false :=
        unopened (place, handle) (mem_openings (by simp))
      rw [FileState.hold_contents, FileState.put_contents, elsewhere]
      exact before
    | writes here => exact before
    | flushes here =>
      rw [FileState.put_contents, away here]
      exact before
    | drops here =>
      rw [FileState.hold_contents, FileState.put_contents, away here]
      exact before
    | dropsNothing free => exact before

end FileEvent

end SchemaCompiler
