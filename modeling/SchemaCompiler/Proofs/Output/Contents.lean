import SchemaCompiler.Proofs.Output.Accounts
import SchemaCompiler.Proofs.Output.Confinement

/-!
Contents do not mix between the files of an output.

Clients use one output over files in memory, in any order, and creating, writing and flushing fail
at any time. Each file that a client opened holds what the ledger of the client says, and all other
files hold what they held. As a client may stop anywhere, that is so at all times.
-/

namespace SchemaCompiler

open FileEvent Sandbox

namespace Output

/-- The notes account for the memory, the files that they open were created for the output, and the
programs go on to ledgers of what they changed. -/
structure Kept (o : Output) (start : Memory) (programs : List (Program Ledger)) (r : Run)
    (t : Trial Sandbox) : Prop where
  noted : Noted start t
  created : ∃ calls, Orderly (fun _ => o) (fun _ => o.directory) programs r calls ∧
    ((openings t.events).map Prod.fst).Sublist (FileCall.created calls)
  marked : ∃ marks, Marked (Accounts o []) marks programs t

variable {o : Output} {start : Memory} {programs : List (Program Ledger)} {r : Run}
  {t : Trial Sandbox}

/-- An action opens the file that it creates, if any. -/
theorem openings_sublist {action : Action} {answer : action.Answer} {r r' : Run}
    {more : List FileCall} (notes : Run.Notes r action answer r' more) :
    ((openings (ofAction action answer)).map Prod.fst).Sublist (FileCall.created more) := by
  by_cases creates : ∃ path, action = .create path
  · obtain ⟨path, rfl⟩ := creates
    rw [notes.of_create]
    cases answer with
    | error e => exact List.nil_sublist _
    | ok handle => exact List.Sublist.refl _
  · have nothing : openings (ofAction action answer) = [] := by
      cases action with
      | create path => exact absurd ⟨path, rfl⟩ creates
      | write | flush => cases answer <;> rfl
      | _ => rfl
    rw [nothing]
    exact List.nil_sublist _

theorem keeps_kept (o : Output) (start : Memory) : Run.Keeps trialHost (Kept o start) := by
  intro programs i action next r r' t t' answer kept here performed
  obtain ⟨noted, ⟨calls, orderly, opened⟩, marks, marked⟩ := kept
  obtain ⟨more, -, notes⟩ := Run.perform_recorded trialHost action r t []
  have goes := noted.perform action r
  rw [performed] at notes goes
  refine ⟨goes.noted, ⟨calls ++ more, orderly.step (fun _ => rfl) here notes, ?_⟩,
    _, marked.step here goes.events⟩
  rw [goes.events, openings_append, List.map_append, FileCall.created_append]
  exact opened.append (openings_sublist notes)

/-- No place and no handle is opened twice. -/
theorem Kept.apart (kept : Kept o start programs r t) : Apart t.events := by
  obtain ⟨noted, ⟨calls, ⟨stages, origins, -, accounted⟩, opened⟩, -⟩ := kept
  have places := List.pairwise_map.mp (accounted.once.sublist opened)
  refine (places.and noted.ordered).imp ?_
  rintro a b ⟨different, less⟩
  exact ⟨Bool.eq_false_iff.mpr different, Nat.ne_of_lt less⟩

/-- The memory holds what the ledgers say, and nothing else is new. -/
structure Unmixed (o : Output) (before : Memory) (ledgers : List Ledger) (after : Memory) :
    Prop where
  /-- A file that was opened holds what was written through its handle: up to the last flush while
  it is open, and all of it once it is closed or dropped. -/
  own : ∀ ledger ∈ ledgers, ∀ earlier name file later,
    ledger = earlier ++ .opened name (.ok file) :: later →
      FileName.fault? name = none ∧ file.path = o.place name ∧
        after.get? file.path = some (Ledger.due file.handle later)
  /-- No other file has changed. -/
  others : ∀ path, (∀ ledger ∈ ledgers, ∀ name file, .opened name (.ok file) ∈ ledger →
    path.same file.path = false) → after.get? path = before.get? path

/-! ## Programs that have ended -/

section

variable {ledgers : List Ledger} {marks : List (Nat × FileEvent)}
  (marked : Marked (Accounts o []) marks (ledgers.map .done) t)
include marked

/-- Every change was made by a program whose ledger accounts for it. -/
theorem accounts_of_marked {mark : Nat × FileEvent} (member : mark ∈ marks) :
    ∃ ledger ∈ ledgers, Accounts o [] (changesOf mark.1 marks) ledger := by
  have inside := marked.inside mark member
  rw [List.length_map] at inside
  exact ⟨_, List.getElem_mem inside, marked.fits_of_done (List.getElem?_eq_getElem inside)⟩

theorem owned_of_marked : ∀ mark ∈ marks, Owned (changesOf mark.1 marks) := by
  intro mark member event used
  obtain ⟨ledger, -, accounts⟩ := accounts_of_marked marked member
  rcases accounts.owned event used with ⟨file, given, -⟩ | opened
  · cases given
  · exact opened

/-- The programs use no file that was open before them. -/
theorem fresh_of_marked (noted : Noted start t) (bounded : start.writers.Bounded) :
    Fresh start.fileState t.events := by
  intro event member
  rw [marked.events] at member
  obtain ⟨mark, marking, rfl⟩ := List.mem_map.mp member
  obtain ⟨path, opened⟩ := owned_of_marked marked mark marking mark.2 (mem_changesOf.mpr marking)
  have listed : .opened path mark.2.handle ∈ t.events := by
    rw [marked.events]
    exact List.mem_map_of_mem (mem_changesOf.mp opened)
  exact noted.desk_start bounded (mem_openings listed)

/-- A file that is opened stands in a ledger. -/
theorem listed_of_marked {place : Path} {handle : Handle}
    (opened : (place, handle) ∈ openings t.events) :
    ∃ ledger ∈ ledgers, ∃ name file, .opened name (.ok file) ∈ ledger ∧ file.path = place := by
  obtain ⟨event, member, opens⟩ := List.mem_filterMap.mp opened
  cases event with
  | opened path other =>
    cases opens
    rw [marked.events] at member
    obtain ⟨⟨i, _⟩, marking, rfl⟩ := List.mem_map.mp member
    obtain ⟨ledger, listed, accounts⟩ := accounts_of_marked marked marking
    obtain ⟨name, file, entry, path, -⟩ :=
      accounts.backed.opened_of_mem (mem_changesOf.mpr marking)
    exact ⟨ledger, listed, name, file, entry, path⟩
  | _ => cases opens

/-- An opened file holds what is due by the ledger of the program that opened it. -/
theorem due_of_marked (noted : Noted start t) (bounded : start.writers.Bounded)
    (apart : Apart t.events) {i : Nat} {earlier later : Ledger} {name : String} {file : OutputFile}
    (here : ledgers[i]? = some (earlier ++ .opened name (.ok file) :: later)) :
    FileName.fault? name = none ∧ file.path = o.place name ∧
      t.inner.memory.get? file.path = some (Ledger.due file.handle later) := by
  obtain ⟨front, back, changes, -, tail⟩ := (marked.fits_of_done here).backed.split
  cases tail with
  | @entry _ _ after _ first rest =>
  cases first with
  | opened accepted place =>
  refine ⟨accepted, place, ?_⟩
  -- The ledger knows only what its own program did. Behind the opening that is all that the whole
  -- history says of the handle.
  obtain ⟨before, behind, whole, own⟩ := changesOf_split changes
  have events : t.events = before.map Prod.snd ++
      .opened file.path file.handle :: behind.map Prod.snd := by
    rw [marked.events, whole, List.map_append, List.map_cons]
  have mine : (i, .opened file.path file.handle) ∈ marks := by simp [whole]
  have only : ∀ mark ∈ behind, mark.2.handle = file.handle → mark.1 = i := fun mark used =>
    user_eq (marked.events ▸ apart) (owned_of_marked marked) mine (by simp [whole, used])
  have fresh := fresh_of_marked marked noted bounded
  have leads := noted.leads
  rw [events] at leads apart fresh
  calc t.inner.memory.get? file.path
    _ = some (shown file.handle (behind.map Prod.snd)) := (leads.shows apart fresh).contents_eq
    _ = some (shown file.handle (changesOf i behind)) := by
      rw [← shown_on, ← on_changesOf only, shown_on]
    _ = some (Ledger.due file.handle later) := by
      rw [own]
      exact congrArg some (rest.due_eq file.handle)

end

theorem Kept.unmixed_of_done {ledgers : List Ledger}
    (kept : Kept o start (ledgers.map .done) r t) (bounded : start.writers.Bounded) :
    Unmixed o start ledgers t.inner.memory := by
  have apart := kept.apart
  obtain ⟨noted, -, marks, marked⟩ := kept
  constructor
  · rintro ledger member earlier name file later rfl
    obtain ⟨i, here⟩ := List.getElem?_of_mem member
    exact due_of_marked marked noted bounded apart here
  · intro path unopened
    refine noted.leads.untouched (fresh_of_marked marked noted bounded) fun opened member => ?_
    obtain ⟨ledger, listed, name, file, entry, place⟩ := listed_of_marked marked member
    exact place ▸ unopened ledger listed name file entry

/-- Files that clients open through one new output hold, whatever the schedule and whatever fails,
what was written through their own handles, by the ledgers that the clients can keep. -/
theorem unmixed (directory : Path) (clients : List (Client [])) {r r₁ r' : Run} {s : Sandbox}
    {faults : List (Option IoError)} {o : Output} {t₁ t : Trial Sandbox} {schedule : List Nat}
    {results : List Unit} (bounded : s.memory.writers.Bounded)
    (opened : Run.execute trialHost (Output.new directory) r ⟨s, faults, []⟩ = ((o, r₁), t₁))
    (ran : Run.executeAll trialHost schedule (clients.map (·.program o)) r₁ t₁ =
      ((results, r'), t)) :
    ∃ ledgers, Run.executeAll trialHost schedule (clients.map (·.ledger o)) r₁ t₁ =
      ((ledgers, r'), t) ∧ Unmixed o s.memory ledgers t.inner.memory := by
  cases opened
  set o : Output := ⟨r.outputs.length, directory⟩
  have begun : Kept o s.memory (clients.map (·.ledger o))
      { r with outputs := r.outputs ++ [⟨directory, false, []⟩] } ⟨s, faults, []⟩ := by
    refine ⟨.nothing bounded, ⟨[], orderly_new ?_ (by simp [o]), .slnil⟩, [], .nothing rfl ?_⟩
    · exact List.forall_mem_map.mpr fun c _ => c.ledger_through
    · exact List.forall_mem_map.mpr fun c _ => c.ledger_leaves
  have keeps : Run.Keeps trialHost (Kept o s.memory) := keeps_kept o s.memory
  rcases kept : Run.executeAll trialHost schedule (clients.map (·.ledger o))
    { r with outputs := r.outputs ++ [⟨directory, false, []⟩] } ⟨s, faults, []⟩ with
    ⟨⟨ledgers, r₂⟩, t₂⟩
  have forgotten : clients.map (·.program o) =
      (clients.map (·.ledger o)).map fun p => p.bind fun _ => .done () := by
    rw [List.map_map]
    exact List.map_congr_left fun c _ => c.program_eq
  rw [forgotten, Run.executeAll_map (fun _ => ()) kept] at ran
  cases ran
  exact ⟨ledgers, kept, (keeps.executeAll begun kept).unmixed_of_done bounded⟩

/-- Writes a file in two parts, with a flush between them. -/
def writeParts (name : String) (first second : Bytes) (rest : (file : OutputFile) → Client [file]) :
    Client [] :=
  .openFile name (fun _ => .done) fun file =>
    .write file List.mem_cons_self first fun _ => .flush file List.mem_cons_self fun _ =>
      .write file List.mem_cons_self second fun _ => rest file

/-- A file that is closed, one that is left open, and one that is written whole. -/
def threeClients : List (Client []) :=
  [writeParts "a" [1] [2] fun file => .close file List.mem_cons_self fun _ => .done,
    writeParts "b" [3] [4] fun _ => .done, .writeFile "c" [5] fun _ => .done]

def startInTurn : Run := { Run.start .empty with outputs := [⟨⟨"out"⟩, false, []⟩] }

def faultsInTurn : List (Option IoError) :=
  let refused := some Memory.injected
  [none, none, none, none, none, none, none, none, refused, refused, none, refused]

/-- The three in turn. The second part of the first file is refused, and so are the flushes when the
first and the third file are closed. -/
def threeInTurn {α : Type} (programs : List (Program α)) : (List α × Run) × Trial Sandbox :=
  Run.executeAll trialHost (List.replicate 8 [0, 1, 2]).flatten programs startInTurn
    ⟨.empty, faultsInTurn, []⟩

/-- The closed files hold what was written to them, whatever was reported, and the file that is
still open holds what was written to it before its last flush. -/
theorem unmixed_threeInTurn :
    let o : Output := ⟨0, ⟨"out"⟩⟩
    let ledgers := (threeInTurn (threeClients.map (·.ledger o))).1.1
    let after := (threeInTurn (threeClients.map (·.program o))).2.inner.memory
    ledgers = [
        [.opened "a" (.ok ⟨⟨"out/a"⟩, 0⟩), .wrote ⟨⟨"out/a"⟩, 0⟩ [1] (.ok ()),
          .flushed ⟨⟨"out/a"⟩, 0⟩ (.ok ()), .wrote ⟨⟨"out/a"⟩, 0⟩ [2] (.error Memory.injected),
          .closed ⟨⟨"out/a"⟩, 0⟩ (.error (.io ⟨"out/a"⟩ Memory.injected))],
        [.opened "b" (.ok ⟨⟨"out/b"⟩, 1⟩), .wrote ⟨⟨"out/b"⟩, 1⟩ [3] (.ok ()),
          .flushed ⟨⟨"out/b"⟩, 1⟩ (.ok ()), .wrote ⟨⟨"out/b"⟩, 1⟩ [4] (.ok ())],
        [.opened "c" (.ok ⟨⟨"out/c"⟩, 2⟩), .wrote ⟨⟨"out/c"⟩, 2⟩ [5] (.ok ()),
          .closed ⟨⟨"out/c"⟩, 2⟩ (.error (.io ⟨"out/c"⟩ Memory.injected))]] ∧
      after.files = [(⟨"out/a"⟩, [1]), (⟨"out/b"⟩, [3]), (⟨"out/c"⟩, [5])] ∧
      Unmixed o .empty ledgers after := by
  intro o
  refine ⟨by decide +kernel, by decide +kernel, ?_⟩
  have opened : Run.execute trialHost (Output.new ⟨"out"⟩) (.start .empty)
      ⟨.empty, faultsInTurn, []⟩ = ((o, startInTurn), ⟨.empty, faultsInTurn, []⟩) := rfl
  rcases ran : threeInTurn (threeClients.map (·.program o)) with ⟨⟨results, r⟩, t⟩
  obtain ⟨ledgers, kept, held⟩ := unmixed ⟨"out"⟩ threeClients (s := .empty)
    (List.forall_mem_nil _) opened ran
  have told : threeInTurn (threeClients.map (·.ledger o)) = ((ledgers, r), t) := kept
  simp only [told, ran]
  exact held

end Output

end SchemaCompiler
