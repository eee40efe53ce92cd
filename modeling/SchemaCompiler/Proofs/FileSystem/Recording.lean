import SchemaCompiler.Proofs.Program.Asking
import SchemaCompiler.Proofs.Program.Interleaving
import SchemaCompiler.Proofs.Program.Performing

/-!
Recorded calls. A host can note every call of its file system, with the answer where that tells
success from failure; apart from the notes a program does the same on it. What an action does to
the notes and to the outputs of a run is said here once, for every file system.
-/

namespace SchemaCompiler

/-- A call of a file system. -/
inductive FileCall where
  | read (path : Path)
  | isFile (path : Path)
  | makeDirectories (path : Path) (answer : Except IoError Unit)
  | create (path : Path) (answer : Except IoError Handle)
  | write (handle : Handle) (data : Bytes)
  | flush (handle : Handle)
  | drop (handle : Handle)

namespace FileCall

/-- The path of a file that the call is to create. -/
def creates? : FileCall → Option Path
  | create path _ => some path
  | _ => none

/-- The path of a directory that the call is to make. -/
def makes? : FileCall → Option Path
  | makeDirectories path _ => some path
  | _ => none

/-- The paths passed to `create`, in order. -/
def created (calls : List FileCall) : List Path := calls.filterMap creates?

theorem created_append (calls more : List FileCall) :
    created (calls ++ more) = created calls ++ created more := List.filterMap_append

theorem mem_created {calls : List FileCall} {path : Path} {answer : Except IoError Handle}
    (h : FileCall.create path answer ∈ calls) : path ∈ created calls :=
  List.mem_filterMap.mpr ⟨_, h, rfl⟩

end FileCall

variable {σ α : Type}

/-- The operation, noted with its answer. -/
def recording (operation : StateM σ α) (call : α → FileCall) : StateM (σ × List FileCall) α :=
  fun (s, calls) => ((operation s).1, (operation s).2, calls ++ [call (operation s).1])

/-- The operation, without a note. -/
def unrecorded (operation : StateM σ α) : StateM (σ × List FileCall) α :=
  fun (s, calls) => ((operation s).1, (operation s).2, calls)

/-- The same operations, each of which is noted. -/
def FileSystem.recorded (fs : FileSystem (StateM σ)) : FileSystem (StateM (σ × List FileCall)) where
  read path := recording (fs.read path) fun _ => .read path
  isFile path := recording (fs.isFile path) fun _ => .isFile path
  makeDirectories path := recording (fs.makeDirectories path) (.makeDirectories path)
  create path := recording (fs.create path) (.create path)
  write handle data := recording (fs.write handle data) fun _ => .write handle data
  flush handle := recording (fs.flush handle) fun _ => .flush handle
  drop handle := recording (fs.drop handle) fun _ => .drop handle

/-- The same host, with the calls of its file system noted. -/
def Host.recorded (host : Host (StateM σ)) : Host (StateM (σ × List FileCall)) where
  files := host.files.recorded
  now := unrecorded host.now
  log event := unrecorded (host.log event)
  locate executable := unrecorded (host.locate executable)
  run path input deadline := unrecorded (host.run path input deadline)

/-- Actions on outputs, and those that create files or make directories. -/
def Action.isOnOutput : Action → Bool
  | .makeDirectories _ | .create _ | .newOutput _ | .prepare _ | .claim _ _ => true
  | _ => false

namespace Run

/-- All that an action can do to the outputs of a run, with the calls that it makes. -/
inductive Notes (r : Run) : (action : Action) → action.Answer → Run → List FileCall → Prop where
  | makesDirectories (path : Path) (answer : Except IoError Unit) :
    Notes r (.makeDirectories path) answer r [.makeDirectories path answer]
  | creates (path : Path) (answer : Except IoError Handle) :
    Notes r (.create path) answer r [.create path answer]
  | opensOutput (directory : Path) :
    Notes r (.newOutput directory) r.outputs.length
      { r with outputs := r.outputs ++ [⟨directory, false, []⟩] } []
  | isPrepared {id : Nat}
    (done : ∀ record, r.outputs[id]? = some record → record.prepared = true) :
    Notes r (.prepare id) (.ok ()) r []
  | prepares {id : Nat} {record : OutputRecord} (here : r.outputs[id]? = some record)
    (first : record.prepared = false) :
    Notes r (.prepare id) (.ok ()) (r.setOutput id { record with prepared := true })
      [.makeDirectories record.directory (.ok ())]
  | isUnprepared {id : Nat} {record : OutputRecord} {e : IoError}
    (here : r.outputs[id]? = some record) :
    Notes r (.prepare id) (.error e) r [.makeDirectories record.directory (.error e)]
  | claims {id : Nat} {name : String} {record : OutputRecord}
    (here : r.outputs[id]? = some record) (free : name ∉ record.claimed) :
    Notes r (.claim id name) true
      (r.setOutput id { record with claimed := name :: record.claimed }) []
  | isClaimed {id : Nat} {name : String}
    (taken : ∀ record, r.outputs[id]? = some record → name ∈ record.claimed) :
    Notes r (.claim id name) false r []
  | other {action : Action} {answer : action.Answer} {r' : Run} {calls : List FileCall}
    (aside : action.isOnOutput = false) (outputs : r'.outputs = r.outputs)
    (plain : ∀ call ∈ calls, call.creates? = none ∧ call.makes? = none) :
    Notes r action answer r' calls

/-- A host that takes notes does the same as without them, and it notes what the action does. -/
theorem perform_recorded (host : Host (StateM σ)) (action : Action) (r : Run) (s : σ)
    (calls : List FileCall) :
    ∃ more, perform host.recorded action r (s, calls) =
        ((perform host action r s).1, ((perform host action r s).2, calls ++ more)) ∧
      Notes r action (perform host action r s).1.1 (perform host action r s).1.2 more := by
  have nothing : calls ++ [] = calls := List.append_nil calls
  have plain : ∀ call ∈ ([] : List FileCall), call.creates? = none ∧ call.makes? = none := by simp
  cases action with
  | makeDirectories path => exact ⟨_, rfl, .makesDirectories path _⟩
  | create path => exact ⟨_, rfl, .creates path _⟩
  | newOutput directory => exact ⟨[], by rw [nothing]; rfl, .opensOutput directory⟩
  | prepare id =>
    simp only [perform_prepare]
    rcases here : r.outputs[id]? with - | record
    · exact ⟨[], by rw [nothing], .isPrepared (by simp [here])⟩
    · by_cases done : record.prepared = true
      · simp only [if_pos done]
        exact ⟨[], by rw [nothing], .isPrepared (by simp [here, done])⟩
      · simp only [if_neg done]
        refine ⟨[.makeDirectories record.directory
          (host.files.makeDirectories record.directory s).1], rfl, ?_⟩
        rcases (host.files.makeDirectories record.directory s).1 with e | ⟨⟩
        · exact .isUnprepared here
        · exact .prepares here (Bool.eq_false_iff.mpr done)
  | claim id name =>
    simp only [perform_claim]
    rcases here : r.outputs[id]? with - | record
    · exact ⟨[], by rw [nothing], .isClaimed (by simp [here])⟩
    · by_cases taken : record.claimed.contains name = true
      · simp only [if_pos taken]
        exact ⟨[], by rw [nothing], .isClaimed (by simpa [here] using taken)⟩
      · simp only [if_neg taken]
        exact ⟨[], by rw [nothing], .claims here (by simpa using taken)⟩
  | read | isFile | write | flush | drop =>
    exact ⟨_, rfl, .other rfl rfl (by simp [FileCall.creates?, FileCall.makes?])⟩
  | isDone | cancel | withTimeout | call =>
    exact ⟨[], by rw [nothing]; rfl, .other rfl rfl plain⟩
  | log event =>
    simp only [perform_log]
    refine ⟨[], ?_, .other rfl rfl plain⟩
    rw [nothing]
    cases r.logging <;> rfl
  | locate executable =>
    simp only [perform_locate]
    cases r.located.lookup executable with
    | some result => exact ⟨[], by rw [nothing], .other rfl rfl plain⟩
    | none => exact ⟨[], by rw [nothing]; rfl, .other rfl rfl plain⟩
  | run executable input limit =>
    simp only [perform_run]
    refine ⟨[], ?_, .other rfl (by split <;> rfl) plain⟩
    rw [nothing]
    split <;> rfl

/-- Only creating a file is noted as such. -/
theorem Notes.created_eq_nil {r r' : Run} {action : Action} {answer : action.Answer}
    {more : List FileCall} (notes : Notes r action answer r' more)
    (different : ∀ path, action ≠ .create path) : FileCall.created more = [] := by
  cases notes with
  | creates path => exact absurd rfl (different path)
  | other aside outputs plain =>
    exact List.filterMap_eq_nil_iff.mpr fun call member => (plain call member).1
  | _ => rfl

/-- What only asks something of the surroundings neither creates files nor makes directories. -/
theorem Notes.plain_of_aside {r r' : Run} {action : Action} {answer : action.Answer}
    {more : List FileCall} (notes : Notes r action answer r' more) (aside : action.isAside = true) :
    ∀ call ∈ more, call.creates? = none ∧ call.makes? = none := by
  cases notes with
  | other _ _ plain => exact plain
  | _ => cases aside

theorem Notes.of_create {r r' : Run} {path : Path} {answer : Except IoError Handle}
    {more : List FileCall} (notes : Notes r (.create path) answer r' more) :
    more = [.create path answer] := by
  cases notes with
  | creates => rfl
  | other aside => cases aside

/-- The first action of a program, with its notes. -/
theorem execute_recorded_ask (host : Host (StateM σ)) (action : Action)
    (next : action.Answer → Program α) (r : Run) (s : σ) (calls : List FileCall) :
    ∃ answer r' s' more,
      execute host.recorded (.ask action next) r (s, calls) =
        execute host.recorded (next answer) r' (s', calls ++ more) ∧
      Notes r action answer r' more := by
  obtain ⟨more, h, notes⟩ := perform_recorded host action r s calls
  exact ⟨_, _, _, more, execute_ask next h, notes⟩

/-- What every step keeps that is seen in the notes is kept by every action of several programs. -/
theorem keeps_of_notes (host : Host (StateM σ))
    (Holds : List (Program α) → Run → List FileCall → Prop)
    (step : ∀ {programs : List (Program α)} {i : Nat} {action : Action}
      {next : action.Answer → Program α} {answer : action.Answer} {r r' : Run}
      {calls more : List FileCall},
      Holds programs r calls → programs[i]? = some (.ask action next) →
        Notes r action answer r' more → Holds (programs.set i (next answer)) r' (calls ++ more)) :
    Keeps host.recorded fun programs r s => Holds programs r s.2 := by
  rintro programs i action next r r' ⟨s, calls⟩ ⟨s', calls'⟩ answer holds here h
  obtain ⟨more, hrecorded, notes⟩ := perform_recorded host action r s calls
  rcases hplain : perform host action r s with ⟨⟨answer', r₁⟩, s₁⟩
  rw [hplain] at hrecorded notes
  cases hrecorded.symm.trans h
  exact step holds here notes

/-- What a program ends with does not depend on whether notes are taken. -/
theorem execute_recorded (host : Host (StateM σ)) (p : Program α) (r : Run) (s : σ)
    (calls : List FileCall) :
    ∃ more, execute host.recorded p r (s, calls) =
      ((execute host p r s).1, ((execute host p r s).2, calls ++ more)) := by
  induction p generalizing r s calls with
  | done a => exact ⟨[], by rw [List.append_nil]; rfl⟩
  | ask action next ih =>
    obtain ⟨more, h, -⟩ := perform_recorded host action r s calls
    obtain ⟨rest, hrest⟩ := ih (perform host action r s).1.1 (perform host action r s).1.2
      (perform host action r s).2 (calls ++ more)
    refine ⟨more ++ rest, ?_⟩
    rw [← List.append_assoc, execute_ask next h, hrest]
    rfl

theorem mapM_execute_recorded (host : Host (StateM σ)) (programs : List (Program α)) (r : Run)
    (s : σ) (calls : List FileCall) :
    ∃ more, programs.mapM (execute host.recorded ·) r (s, calls) =
      ((programs.mapM (execute host ·) r s).1,
        ((programs.mapM (execute host ·) r s).2, calls ++ more)) := by
  induction programs generalizing r s calls with
  | nil => exact ⟨[], by rw [List.append_nil]; rfl⟩
  | cons p programs ih =>
    obtain ⟨more, first⟩ := execute_recorded host p r s calls
    rcases ran : execute host p r s with ⟨⟨a, r₁⟩, s₁⟩
    rw [ran] at first
    obtain ⟨others, rest⟩ := ih r₁ s₁ (calls ++ more)
    rcases remaining : programs.mapM (execute host ·) r₁ s₁ with ⟨⟨as, r₂⟩, s₂⟩
    rw [remaining, List.append_assoc] at rest
    exact ⟨more ++ others, by rw [mapM_execute_cons first rest, mapM_execute_cons ran remaining]⟩

theorem executeAll_recorded (host : Host (StateM σ)) (schedule : List Nat)
    (programs : List (Program α)) (r : Run) (s : σ) (calls : List FileCall) :
    ∃ more, executeAll host.recorded schedule programs r (s, calls) =
      ((executeAll host schedule programs r s).1,
        ((executeAll host schedule programs r s).2, calls ++ more)) := by
  induction schedule generalizing programs r s calls with
  | nil => exact mapM_execute_recorded host programs r s calls
  | cons i schedule ih =>
    by_cases asks : ∃ action next, programs[i]? = some (.ask action next)
    · obtain ⟨action, next, here⟩ := asks
      obtain ⟨more, noted, -⟩ := perform_recorded host action r s calls
      rcases performed : perform host action r s with ⟨⟨answer, r₁⟩, s₁⟩
      rw [performed] at noted
      obtain ⟨others, rest⟩ := ih (programs.set i (next answer)) r₁ s₁ (calls ++ more)
      rw [executeAll_next here noted, executeAll_next here performed, rest, List.append_assoc]
      exact ⟨_, rfl⟩
    · rw [executeAll_skip asks, executeAll_skip asks]
      exact ih programs r s calls

/-- A program that only asks something of its surroundings neither creates files nor makes
directories. -/
theorem execute_recorded_of_asks (host : Host (StateM σ)) {p : Program α} (asks : Program.Asks p)
    (r : Run) (s : σ) (calls : List FileCall) :
    ∃ more, execute host.recorded p r (s, calls) =
        ((execute host p r s).1, ((execute host p r s).2, calls ++ more)) ∧
      ∀ call ∈ more, call.creates? = none ∧ call.makes? = none := by
  induction asks generalizing r s calls with
  | done a => exact ⟨[], by rw [List.append_nil]; rfl, List.forall_mem_nil _⟩
  | @ask action aside next _ ih =>
    obtain ⟨more, h, notes⟩ := perform_recorded host action r s calls
    obtain ⟨rest, hrest, later⟩ := ih (perform host action r s).1.1 (perform host action r s).1.2
      (perform host action r s).2 (calls ++ more)
    refine ⟨more ++ rest, ?_, List.forall_mem_append.mpr ⟨notes.plain_of_aside aside, later⟩⟩
    rw [← List.append_assoc, execute_ask next h, hrest]
    rfl

end Run

end SchemaCompiler
