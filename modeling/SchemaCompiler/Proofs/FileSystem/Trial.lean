import SchemaCompiler.Proofs.FileSystem.Events
import SchemaCompiler.Proofs.FileSystem.MemoryView

/-!
Hosts on which operations go wrong at any time.

A trial says of the next operations on files which of them fail, before they reach the host, and
notes the changes that succeeded. On files in memory the notes account for every change, and handles
are given out in order.
-/

namespace SchemaCompiler

open FileEvent

variable {σ α : Type}

/-- The changes that an action with an answer makes. -/
def FileEvent.ofAction : (action : Action) → action.Answer → List FileEvent
  | .create path, .ok handle => [.opened path handle]
  | .write handle data, .ok () => [.wrote handle data]
  | .flush handle, .ok () => [.flushed handle]
  | .drop handle, () => [.dropped handle]
  | _, _ => []

structure Trial (σ : Type) where
  inner : σ
  /-- What becomes of the operations to come: they fail with an error, or are left to the host. -/
  faults : List (Option IoError)
  /-- The changes that succeeded so far. -/
  events : List FileEvent

namespace Trial

/-- An operation that may go wrong. -/
def attempt (operation : StateM σ (Except IoError α)) (event : α → FileEvent) :
    StateM (Trial σ) (Except IoError α) := fun t =>
  match t.faults.head? with
  | some (some e) => (.error e, { t with faults := t.faults.tail })
  | _ =>
    let (answer, inner) := operation t.inner
    (answer, ⟨inner, t.faults.tail, t.events ++ (answer.toOption.map event).toList⟩)

/-- An operation that is left to the host. -/
def aside (operation : StateM σ α) : StateM (Trial σ) α := fun t =>
  ((operation t.inner).1, { t with inner := (operation t.inner).2 })

/-- Dropping a file does not fail. -/
def dropping (operation : StateM σ Unit) (handle : Handle) : StateM (Trial σ) Unit := fun t =>
  ((), { t with inner := (operation t.inner).2, events := t.events ++ [.dropped handle] })

end Trial

open Trial

def FileSystem.tried (fs : FileSystem (StateM σ)) : FileSystem (StateM (Trial σ)) where
  read path := aside (fs.read path)
  isFile path := aside (fs.isFile path)
  makeDirectories path := aside (fs.makeDirectories path)
  create path := attempt (fs.create path) (.opened path)
  write handle data := attempt (fs.write handle data) fun _ => .wrote handle data
  flush handle := attempt (fs.flush handle) fun _ => .flushed handle
  drop handle := dropping (fs.drop handle) handle

/-- The same host, with operations that go wrong and notes of those that do not. -/
def Host.tried (host : Host (StateM σ)) : Host (StateM (Trial σ)) where
  files := host.files.tried
  now := aside host.now
  log event := aside (host.log event)
  locate executable := aside (host.locate executable)
  run path input deadline := aside (host.run path input deadline)

/-! ## Memory -/

namespace Memory

/-- A history that leads from one memory to another. -/
structure History (start : Memory) (events : List FileEvent) (m : Memory) : Prop where
  leads : Leads start.fileState events m.fileState
  bounded : m.writers.Bounded
  /-- Handles are given out in order. -/
  ordered : (openings events).Pairwise fun a b => a.2 < b.2
  from_next : start.writers.next ≤ m.writers.next
  within : ∀ opened ∈ openings events,
    start.writers.next ≤ opened.2 ∧ opened.2 < m.writers.next

variable {start m m' : Memory} {events : List FileEvent} {path : Path} {handle : Handle}
  {data : Bytes} {e : IoError}

theorem desk_of_none (free : m.writers.get? handle = none) : m.fileState.desk handle = none :=
  congrArg (Option.map fun w : Writer Path => (w.place, w.data)) free

theorem desk_of_writer {w : Writer Path} (here : m.writers.get? handle = some w) :
    m.fileState.desk handle = some (w.place, w.data) :=
  congrArg (Option.map fun w : Writer Path => (w.place, w.data)) here

theorem History.nothing (bounded : m.writers.Bounded) : History m [] m :=
  ⟨.nothing, bounded, .nil, Nat.le_refl _, List.forall_mem_nil _⟩

/-- A change that opens no file. -/
theorem History.change {event : FileEvent} (h : History start events m)
    (again : event.opening? = none) (does : event.Does m.fileState m'.fileState)
    (bounded : m'.writers.Bounded) (next : m'.writers.next = m.writers.next) :
    History start (events ++ [event]) m' := by
  have same : openings (events ++ [event]) = openings events := by
    have none : openings [event] = [] := List.filterMap_cons_none again
    rw [openings_append, none, List.append_nil]
  refine ⟨.event h.leads does, bounded, ?_, ?_, ?_⟩
  · rw [same]
    exact h.ordered
  · rw [next]
    exact h.from_next
  · rw [same, next]
    exact h.within

theorem History.create (h : History start events m) (made : m.create path = (.ok handle, m')) :
    History start (events ++ [.opened path handle]) m' := by
  unfold Memory.create at made
  split at made
  · cases made
  cases made
  have opening : openings (events ++ [.opened path m.writers.next]) =
      openings events ++ [(path, m.writers.next)] := openings_append _ _
  have free : m.fileState.desk m.writers.next = none := desk_of_none (Writers.get?_next h.bounded)
  have files : ({ m.put path [] with writers := (m.writers.add path).2 } : Memory).fileState =
      (m.fileState.put path []).hold m.writers.next (some (path, [])) := by
    rw [← fileState_put]
    exact fileState_add (m.put path []) path
  refine ⟨.event h.leads ?_, h.bounded.add path, ?_, Nat.le_succ_of_le h.from_next, ?_⟩
  · change FileEvent.Does _ _
      ({ m.put path [] with writers := (m.writers.add path).2 } : Memory).fileState
    rw [files]
    exact .opens free path
  · rw [opening, List.pairwise_append]
    refine ⟨h.ordered, List.pairwise_singleton _ _, fun opened before _ now => ?_⟩
    rw [List.mem_singleton.mp now]
    exact (h.within opened before).2
  · rw [opening, List.forall_mem_append, List.forall_mem_singleton]
    refine ⟨fun opened before => ?_, h.from_next, Nat.lt_succ_self _⟩
    obtain ⟨late, early⟩ := h.within opened before
    exact ⟨late, Nat.lt_succ_of_lt early⟩

theorem History.write (h : History start events m) (done : m.write handle data = (.ok (), m')) :
    History start (events ++ [.wrote handle data]) m' := by
  unfold Memory.write at done
  split at done
  · cases done
  next w here =>
  split at done
  · cases done
  cases done
  have held := desk_of_writer here
  refine h.change rfl ?_ (h.bounded.append handle data) rfl
  rw [fileState_append m held]
  exact .writes held data

theorem History.flush (h : History start events m) (done : m.flush handle = (.ok (), m')) :
    History start (events ++ [.flushed handle]) m' := by
  unfold Memory.flush at done
  split at done
  · cases done
  next w here =>
  split at done
  · cases done
  cases done
  have held := desk_of_writer here
  refine h.change rfl ?_ h.bounded rfl
  rw [fileState_put]
  exact .flushes held

theorem History.drop (h : History start events m) (handle : Handle) :
    History start (events ++ [.dropped handle]) (m.drop handle) := by
  unfold Memory.drop
  split
  · next here =>
    exact h.change rfl (.dropsNothing (desk_of_none here)) h.bounded rfl
  · next w here =>
    have held := desk_of_writer here
    refine h.change rfl ?_ (h.bounded.remove handle) rfl
    have files := fileState_remove (m.put w.place w.data) handle
    rw [fileState_put] at files
    exact files ▸ .drops held

/-- No file that the history opens was open at the start. -/
theorem History.desk_start (h : History start events m) (bounded : start.writers.Bounded)
    (opened : (path, handle) ∈ openings events) : start.fileState.desk handle = none :=
  desk_of_none (Writers.get?_of_le bounded (h.within _ opened).1)

/-- What fails leaves the memory as it was. -/
theorem create_error (failed : m.create path = (.error e, m')) : m' = m := by
  unfold Memory.create at failed
  split at failed <;> cases failed
  rfl

theorem write_error (failed : m.write handle data = (.error e, m')) : m' = m := by
  unfold Memory.write at failed
  split at failed
  · cases failed
    rfl
  split at failed <;> cases failed
  rfl

theorem flush_error (failed : m.flush handle = (.error e, m')) : m' = m := by
  unfold Memory.flush at failed
  split at failed
  · cases failed
    rfl
  split at failed <;> cases failed
  rfl

end Memory

/-! ## Trials of a host with its files in memory -/

namespace Sandbox

/-- A host in memory on which operations go wrong. -/
abbrev trialHost : Host (StateM (Trial Sandbox)) := (host memoryFiles).tried

/-- The notes of the trial account for what became of the memory. -/
def Noted (start : Memory) (t : Trial Sandbox) : Prop := start.History t.events t.inner.memory

/-- A trial goes on, and notes some changes, which account for what became of the memory. -/
structure Goes (start : Memory) (t : Trial Sandbox) (more : List FileEvent)
    (t' : Trial Sandbox) : Prop where
  noted : Noted start t'
  events : t'.events = t.events ++ more

namespace Noted

variable {start : Memory} {t : Trial Sandbox}

theorem stays (noted : Noted start t) : Goes start t [] t := ⟨noted, (List.append_nil _).symm⟩

/-- What changes no file needs no note. -/
theorem spared (noted : Noted start t) {s : Sandbox}
    (files : s.memory.fileState = t.inner.memory.fileState)
    (writers : s.memory.writers = t.inner.memory.writers) :
    Goes start t [] { t with inner := s } := by
  obtain ⟨leads, bounded, ordered, from_next, within⟩ := noted
  refine ⟨⟨?_, ?_, ordered, ?_, ?_⟩, (List.append_nil _).symm⟩
  · exact files ▸ leads
  · exact writers ▸ bounded
  · exact writers ▸ from_next
  · exact writers ▸ within

theorem makeDirectories (noted : Noted start t) (path : Path) :
    Goes start t [] (trialHost.files.makeDirectories path t).2 := by
  have made : (t.inner.memory.makeDirectories path).2.fileState = t.inner.memory.fileState ∧
      (t.inner.memory.makeDirectories path).2.writers = t.inner.memory.writers := by
    unfold Memory.makeDirectories
    split <;> exact ⟨rfl, rfl⟩
  exact noted.spared made.1 made.2

/-- An operation on memory is noted if it succeeds, and changes nothing if it fails. -/
theorem attempt (noted : Noted start t) (operation : Memory → Except IoError α × Memory)
    (event : α → FileEvent) (lifted : StateM Sandbox (Except IoError α))
    (lifts : ∀ s, lifted s =
      ((operation s.memory).1, { s with memory := (operation s.memory).2 }))
    (succeeds : ∀ {a m}, operation t.inner.memory = (.ok a, m) →
      start.History (t.events ++ [event a]) m)
    (fails : ∀ {e m}, operation t.inner.memory = (.error e, m) → m = t.inner.memory) :
    Goes start t ((Trial.attempt lifted event t).1.toOption.map event).toList
      (Trial.attempt lifted event t).2 := by
  unfold Trial.attempt
  split
  · exact ⟨noted, (List.append_nil _).symm⟩
  rw [lifts]
  rcases performed : operation t.inner.memory with ⟨answer, m⟩
  cases answer with
  | ok a => exact ⟨succeeds performed, rfl⟩
  | error e =>
    obtain rfl := fails performed
    refine ⟨?_, rfl⟩
    change start.History (t.events ++ []) t.inner.memory
    rw [List.append_nil]
    exact noted

theorem create (noted : Noted start t) (path : Path) :
    Goes start t (ofAction (.create path) (trialHost.files.create path t).1)
      (trialHost.files.create path t).2 := by
  have goes := noted.attempt (·.create path) (.opened path) (memoryFiles.create path)
    (fun s => rfl) (fun made => Memory.History.create noted made) Memory.create_error
  change Goes start t (ofAction (.create path)
    (Trial.attempt (memoryFiles.create path) (.opened path) t).1) _
  revert goes
  cases (Trial.attempt (memoryFiles.create path) (.opened path) t).1 <;> exact id

theorem write (noted : Noted start t) (handle : Handle) (data : Bytes) :
    Goes start t (ofAction (.write handle data) (trialHost.files.write handle data t).1)
      (trialHost.files.write handle data t).2 := by
  have goes := noted.attempt (·.write handle data) (fun _ => .wrote handle data)
    (memoryFiles.write handle data) (fun s => rfl) (fun done => Memory.History.write noted done)
    Memory.write_error
  change Goes start t (ofAction (.write handle data)
    (Trial.attempt (memoryFiles.write handle data) _ t).1) _
  revert goes
  cases (Trial.attempt (memoryFiles.write handle data) _ t).1 <;> exact id

theorem flush (noted : Noted start t) (handle : Handle) :
    Goes start t (ofAction (.flush handle) (trialHost.files.flush handle t).1)
      (trialHost.files.flush handle t).2 := by
  have goes := noted.attempt (·.flush handle) (fun _ => .flushed handle) (memoryFiles.flush handle)
    (fun s => rfl) (fun done => Memory.History.flush noted done) Memory.flush_error
  change Goes start t (ofAction (.flush handle)
    (Trial.attempt (memoryFiles.flush handle) _ t).1) _
  revert goes
  cases (Trial.attempt (memoryFiles.flush handle) _ t).1 <;> exact id

theorem drop (noted : Noted start t) (handle : Handle) :
    Goes start t [.dropped handle] (trialHost.files.drop handle t).2 :=
  ⟨Memory.History.drop noted handle, rfl⟩

/-- Every action of a run keeps the notes in step with the memory. -/
theorem perform (noted : Noted start t) (action : Action) (r : Run) :
    Goes start t (ofAction action (Run.perform trialHost action r t).1.1)
      (Run.perform trialHost action r t).2 := by
  cases action with
  | create path => exact noted.create path
  | write handle data => exact noted.write handle data
  | flush handle => exact noted.flush handle
  | drop handle => exact noted.drop handle
  | makeDirectories path => exact noted.makeDirectories path
  | read | isFile | isDone | withTimeout => exact noted.spared rfl rfl
  | newOutput | cancel | call => exact noted.stays
  | prepare id =>
    rw [Run.perform_prepare]
    split
    · exact noted.stays
    · split
      · exact noted.stays
      · exact noted.makeDirectories _
  | claim id name =>
    rw [Run.perform_claim]
    split
    · exact noted.stays
    · split <;> exact noted.stays
  | log event =>
    rw [Run.perform_log]
    cases r.logging
    · exact noted.stays
    · exact noted.spared rfl rfl
  | locate executable =>
    rw [Run.perform_locate]
    split
    · exact noted.stays
    · exact noted.spared rfl rfl
  | run executable input limit =>
    rw [Run.perform_run]
    split
    · exact noted.stays
    · have memory : (t.inner.run executable input limit.deadline).2.memory = t.inner.memory := by
        unfold Sandbox.run
        split <;> rfl
      exact noted.spared (congrArg Memory.fileState memory) (congrArg Memory.writers memory)

end Noted

end Sandbox

end SchemaCompiler
