import SchemaCompiler.Proofs.FileSystem.Recording
import SchemaCompiler.Proofs.FileSystem.Sharing
import SchemaCompiler.Proofs.Program.Settling

/-!
Programs that share a host, each with places of its own, come to what each comes to by itself.

The invariant says that every program settles from what it knows, and that what all of them know is
true of the files and of the outputs. The next action of any program keeps it, so it holds under
every schedule.
-/

namespace SchemaCompiler

open Program (Settles)

variable {σ α : Type} {host : Host (StateM σ)}

/-- Programs at work on one host. Each settles from its own files and from the names that it took,
and all that the calls created is among the files of the programs. -/
structure Together (view : Host.View host) (cancellations : Cancellations)
    (outputOf : Nat → Output) (places : Nat → Path → Prop)
    (Q : Nat → α → FileState → List String → Prop) (before : Path → Option Bytes)
    (own : Nat → FileState) (taken : Nat → List String) (programs : List (Program α)) (r : Run)
    (s : σ) (calls : List FileCall) : Prop where
  settles : ∀ {i p}, programs[i]? = some p →
    Settles view cancellations (outputOf i) (places i) (Q i) p (own i) (taken i)
  calm : view.Calm cancellations r
  valid : view.Valid s
  files : FilesShared programs.length places before own (view.files s)
  outputs : OutputsShared programs.length outputOf places view.verdict taken r.outputs
  created : ∀ {path handle}, FileCall.create path (.ok handle) ∈ calls →
    ∃ i < programs.length, (own i).contents path ≠ none

/-- Nothing was created. -/
structure Unbegun (view : Host.View host) (cancellations : Cancellations) (r : Run) (s : σ)
    (calls : List FileCall) : Prop where
  calm : view.Calm cancellations r
  valid : view.Valid s
  nothing : ∀ {path handle}, FileCall.create path (.ok handle) ∉ calls

/-- Nothing is created by asking, and files and outputs stay as they are. -/
theorem Unbegun.asks {view : Host.View host} {cancellations : Cancellations} {r : Run} {s : σ}
    {calls : List FileCall} (h : Unbegun view cancellations r s calls) {p : Program α}
    (asks : Program.Asks p) :
    ∃ r' s' calls', Run.execute host.recorded p r (s, calls) =
        (((Run.execute host p r s).1.1, r'), (s', calls')) ∧
      r'.outputs = r.outputs ∧ view.files s' = view.files s ∧
      Unbegun view cancellations r' s' calls' := by
  obtain ⟨more, recorded, plain⟩ := Run.execute_recorded_of_asks host asks r s calls
  rcases ran : Run.execute host p r s with ⟨⟨a, r'⟩, s'⟩
  rw [ran] at recorded
  obtain ⟨outputs, valid, files⟩ := view.execute_asks asks h.valid ran
  refine ⟨r', s', calls ++ more, recorded, outputs, files, h.calm.asks asks h.valid ran, valid, ?_⟩
  intro path handle member
  rcases List.mem_append.mp member with before | now
  · exact h.nothing before
  · cases (plain _ now).1

/-- Nothing was created, and nothing was done with the outputs of the first programs. -/
structure Poised (view : Host.View host) (cancellations : Cancellations) (outputOf : Nat → Output)
    (count : Nat) (r : Run) (s : σ) (calls : List FileCall) : Prop
    extends Unbegun view cancellations r s calls where
  fresh : ∀ {i}, i < count →
    r.outputs[(outputOf i).id]? = some ⟨(outputOf i).directory, false, []⟩

theorem Poised.mono {view : Host.View host} {cancellations : Cancellations}
    {outputOf : Nat → Output} {count fewer : Nat} {r : Run} {s : σ} {calls : List FileCall}
    (h : Poised view cancellations outputOf count r s calls) (le : fewer ≤ count) :
    Poised view cancellations outputOf fewer r s calls :=
  { h with fresh := fun inside => h.fresh (Nat.lt_of_lt_of_le inside le) }

namespace Together

variable {view : Host.View host} {cancellations : Cancellations} {outputOf : Nat → Output}
  {places : Nat → Path → Prop} {Q : Nat → α → FileState → List String → Prop}
  {before : Path → Option Bytes} {own : Nat → FileState} {taken : Nat → List String}
  {programs : List (Program α)} {r r' : Run} {s s' : σ} {calls more : List FileCall} {i : Nat}

/-- One of the programs goes on, and what it knows afterwards is true as well. -/
theorem advance (h : Together view cancellations outputOf places Q before own taken programs r s
      calls) (inside : i < programs.length) {p : Program α} (f : FileState) (names : List String)
    (settles : Settles view cancellations (outputOf i) (places i) (Q i) p f names)
    (calm : view.Calm cancellations r') (valid : view.Valid s')
    (files : FilesShared programs.length places before (Function.update own i f) (view.files s'))
    (outputs : OutputsShared programs.length outputOf places view.verdict
      (Function.update taken i names) r'.outputs)
    (grows : ∀ {path}, (own i).contents path ≠ none → f.contents path ≠ none)
    (created : ∀ {path handle}, FileCall.create path (.ok handle) ∈ more →
      f.contents path ≠ none) :
    Together view cancellations outputOf places Q before (Function.update own i f)
      (Function.update taken i names) (programs.set i p) r' s' (calls ++ more) := by
  constructor
  · intro j q here
    by_cases same : j = i
    · subst same
      rw [List.getElem?_set_self inside] at here
      cases here
      simpa using settles
    · rw [List.getElem?_set_ne (Ne.symm same)] at here
      simpa [same] using h.settles here
  · exact calm
  · exact valid
  · rwa [List.length_set]
  · rwa [List.length_set]
  · intro path handle member
    rw [List.length_set]
    rcases List.mem_append.mp member with earlier | now
    · obtain ⟨j, hj, known⟩ := h.created earlier
      refine ⟨j, hj, ?_⟩
      by_cases same : j = i
      · subst same
        simpa using grows known
      · simpa [same] using known
    · exact ⟨i, inside, by simpa using created now⟩

/-- One of the programs goes on with other files. -/
theorem advance_files (h : Together view cancellations outputOf places Q before own taken programs r
      s calls) (inside : i < programs.length) {p : Program α} {f : FileState}
    (settles : Settles view cancellations (outputOf i) (places i) (Q i) p f (taken i))
    (valid : view.Valid s')
    (files : FilesShared programs.length places before (Function.update own i f) (view.files s'))
    (grows : ∀ {path}, (own i).contents path ≠ none → f.contents path ≠ none)
    (created : ∀ {path handle}, FileCall.create path (.ok handle) ∈ more →
      f.contents path ≠ none) :
    Together view cancellations outputOf places Q before (Function.update own i f) taken
      (programs.set i p) r s' (calls ++ more) := by
  have result := h.advance inside f (taken i) settles h.calm valid files
    (by rw [Function.update_eq_self]; exact h.outputs) grows created
  rwa [Function.update_eq_self] at result

/-- One of the programs goes on without a change to its files or its names. -/
theorem advance_unchanged (h : Together view cancellations outputOf places Q before own taken
      programs r s calls) (inside : i < programs.length) {p : Program α}
    (settles : Settles view cancellations (outputOf i) (places i) (Q i) p (own i) (taken i))
    (calm : view.Calm cancellations r') (valid : view.Valid s')
    (files : view.files s' = view.files s)
    (outputs : OutputsShared programs.length outputOf places view.verdict taken r'.outputs)
    (created : ∀ {path handle}, FileCall.create path (.ok handle) ∉ more) :
    Together view cancellations outputOf places Q before own taken (programs.set i p) r' s'
      (calls ++ more) := by
  have result := h.advance inside (own i) (taken i) settles calm valid
    (by rw [Function.update_eq_self, files]; exact h.files)
    (by rwa [Function.update_eq_self]) id (fun now => absurd now created)
  rwa [Function.update_eq_self, Function.update_eq_self] at result

theorem put_ne_none {f : FileState} {path q : Path} {data : Bytes} (h : f.contents q ≠ none) :
    (f.put path data).contents q ≠ none := by
  rw [FileState.put_contents]
  split
  · exact nofun
  · exact h

/-! ## What each action does to them -/

section Steps

variable (apart : PlacesApart programs.length places)
  (h : Together view cancellations outputOf places Q before own taken programs r s calls)
include h

theorem step_prepare {id : Nat} {next : Except IoError Unit → Program α}
    {answer : Except IoError Unit} (here : programs[i]? = some (.ask (.prepare id) next))
    (performed : Run.perform host (.prepare id) r s = ((answer, r'), s'))
    (plain : ∀ {path handle}, FileCall.create path (.ok handle) ∉ more) :
    Together view cancellations outputOf places Q before own taken
      (programs.set i (next answer)) r' s' (calls ++ more) := by
  have inside := (List.getElem?_eq_some_iff.mp here).1
  obtain ⟨rfl, later⟩ := h.settles here
  obtain ⟨record, hrecord, directory, made, -⟩ := h.outputs.kept inside
  obtain ⟨s₁, hperform, valid, files⟩ := view.perform_prepare h.valid hrecord made
  cases hperform.symm.trans performed
  rw [← directory] at later
  refine h.advance_unchanged inside later (h.calm.of_setOutput _ _) valid files ?_ plain
  refine h.outputs.prepare hrecord fun done => ?_
  cases verdict : view.verdict .makeDirectories record.directory with
  | ok => rfl
  | error e =>
    rw [verdict] at done
    cases done

theorem step_makeDirectories {path : Path} {next : Except IoError Unit → Program α}
    {answer : Except IoError Unit} (here : programs[i]? = some (.ask (.makeDirectories path) next))
    (performed : Run.perform host (.makeDirectories path) r s = ((answer, r'), s'))
    (plain : ∀ {path handle}, FileCall.create path (.ok handle) ∉ more) :
    Together view cancellations outputOf places Q before own taken
      (programs.set i (next answer)) r' s' (calls ++ more) := by
  have inside := (List.getElem?_eq_some_iff.mp here).1
  have later := h.settles here
  obtain ⟨answered, valid, files⟩ := view.makeDirectories_ends path s h.valid
  cases performed
  rw [answered]
  exact h.advance_unchanged inside later h.calm valid files h.outputs plain

include apart in
theorem step_claim {id : Nat} {name : String} {next : Bool → Program α} {answer : Bool}
    (here : programs[i]? = some (.ask (.claim id name) next))
    (performed : Run.perform host (.claim id name) r s = ((answer, r'), s'))
    (plain : ∀ {path handle}, FileCall.create path (.ok handle) ∉ more) :
    ∃ taken', Together view cancellations outputOf places Q before own taken'
      (programs.set i (next answer)) r' s' (calls ++ more) := by
  have inside := (List.getElem?_eq_some_iff.mp here).1
  obtain ⟨rfl, later⟩ := h.settles here
  obtain ⟨record, hrecord, directory, made, -⟩ := h.outputs.kept inside
  rw [Run.perform_claim, hrecord] at performed
  by_cases known : name ∈ taken i
  · rw [if_pos known] at later
    have claimed := (h.outputs.mem_claimed_iff apart inside hrecord
      (h.outputs.within inside known)).mpr known
    simp only [List.contains_iff_mem, if_pos claimed] at performed
    cases performed
    exact ⟨taken, h.advance_unchanged inside later h.calm h.valid rfl h.outputs plain⟩
  · rw [if_neg known] at later
    have free := mt (h.outputs.mem_claimed_iff apart inside hrecord later.1).mp known
    simp only [List.contains_iff_mem, if_neg free] at performed
    cases performed
    refine ⟨Function.update taken i (name :: taken i), ?_⟩
    have result := h.advance inside (own i) (name :: taken i) later.2 (h.calm.of_setOutput _ _) h.valid
      (by rw [Function.update_eq_self]; exact h.files)
      (h.outputs.claim inside hrecord later.1) id (fun now => absurd now plain)
    rwa [Function.update_eq_self] at result

include apart in
theorem step_create {path : Path} {next : Except IoError Handle → Program α}
    {answer : Except IoError Handle} (here : programs[i]? = some (.ask (.create path) next))
    (performed : Run.perform host (.create path) r s = ((answer, r'), s'))
    (noted : ∀ {q handle}, FileCall.create q (.ok handle) ∈ more → q = path ∧ answer = .ok handle) :
    ∃ own', Together view cancellations outputOf places Q before own' taken
      (programs.set i (next answer)) r' s' (calls ++ more) := by
  have inside := (List.getElem?_eq_some_iff.mp here).1
  obtain ⟨place, refused, created⟩ := h.settles here
  cases verdict : view.verdict .create path with
  | error e =>
    obtain ⟨answered, valid, files⟩ := view.create_refused path s e h.valid verdict
    cases performed
    refine ⟨own, ?_⟩
    rw [answered] at noted ⊢
    exact h.advance_unchanged inside (refused e verdict) h.calm valid files h.outputs
      fun now => nomatch (noted now).2
  | ok =>
    obtain ⟨handle, free, answered, valid, files⟩ := view.create_ends path s h.valid verdict
    cases performed
    have unused := h.files.all_free free
    refine ⟨Function.update own i (((own i).put path []).hold handle (some (path, []))), ?_⟩
    rw [answered] at noted ⊢
    have shared := (h.files.put apart inside place []).hold inside handle
      (some (path, [])) (by rintro x ⟨⟩; exact place)
      (by intro j hj different; simpa [different] using unused j hj)
    rw [Function.update_idem, Function.update_self] at shared
    refine h.advance_files inside (created verdict handle (unused i inside)) valid
      (by rwa [files]) put_ne_none fun {q other} now => ?_
    obtain ⟨rfl, -⟩ := noted now
    rw [FileState.hold_contents, FileState.put_contents, if_pos (Path.same_refl q)]
    exact nofun

theorem step_write {handle : Handle} {data : Bytes} {next : Except IoError Unit → Program α}
    {answer : Except IoError Unit} (here : programs[i]? = some (.ask (.write handle data) next))
    (performed : Run.perform host (.write handle data) r s = ((answer, r'), s'))
    (plain : ∀ {path handle}, FileCall.create path (.ok handle) ∉ more) :
    ∃ own', Together view cancellations outputOf places Q before own' taken
      (programs.set i (next answer)) r' s' (calls ++ more) := by
  have inside := (List.getElem?_eq_some_iff.mp here).1
  obtain ⟨path, written, held, later⟩ := h.settles here
  obtain ⟨opened, place⟩ := h.files.opened inside held
  obtain ⟨answered, valid, files⟩ := view.write_ends handle data s path written h.valid opened
  cases performed
  rw [answered]
  cases verdict : view.verdict .write path with
  | error e =>
    rw [verdict] at later files
    exact ⟨own, h.advance_unchanged inside later h.calm valid files h.outputs plain⟩
  | ok =>
    rw [verdict] at later files
    have shared := h.files.hold inside handle (some (path, written ++ data))
      (by rintro x ⟨⟩; exact place) (h.files.others_free inside held)
    exact ⟨_, h.advance_files inside later valid (by rw [files]; exact shared) id
      fun now => absurd now plain⟩

include apart in
theorem step_flush {handle : Handle} {next : Except IoError Unit → Program α}
    {answer : Except IoError Unit} (here : programs[i]? = some (.ask (.flush handle) next))
    (performed : Run.perform host (.flush handle) r s = ((answer, r'), s'))
    (plain : ∀ {path handle}, FileCall.create path (.ok handle) ∉ more) :
    ∃ own', Together view cancellations outputOf places Q before own' taken
      (programs.set i (next answer)) r' s' (calls ++ more) := by
  have inside := (List.getElem?_eq_some_iff.mp here).1
  obtain ⟨path, data, held, later⟩ := h.settles here
  obtain ⟨opened, place⟩ := h.files.opened inside held
  obtain ⟨answered, valid, files⟩ := view.flush_ends handle s path data h.valid opened
  cases performed
  rw [answered]
  cases verdict : view.verdict .flush path with
  | error e =>
    rw [verdict] at later files
    exact ⟨own, h.advance_unchanged inside later h.calm valid files h.outputs plain⟩
  | ok =>
    rw [verdict] at later files
    exact ⟨_, h.advance_files inside later valid
      (by rw [files]; exact h.files.put apart inside place data) put_ne_none
      fun now => absurd now plain⟩

include apart in
theorem step_drop {handle : Handle} {next : Unit → Program α} {answer : Unit}
    (here : programs[i]? = some (.ask (.drop handle) next))
    (performed : Run.perform host (.drop handle) r s = ((answer, r'), s'))
    (plain : ∀ {path handle}, FileCall.create path (.ok handle) ∉ more) :
    ∃ own', Together view cancellations outputOf places Q before own' taken
      (programs.set i (next answer)) r' s' (calls ++ more) := by
  have inside := (List.getElem?_eq_some_iff.mp here).1
  obtain ⟨path, data, held, later⟩ := h.settles here
  obtain ⟨opened, place⟩ := h.files.opened inside held
  obtain ⟨-, valid, files⟩ := view.drop_ends handle s path data h.valid opened
  cases performed
  have shared := (h.files.put apart inside place data).hold inside handle none
    (fun _ => nofun)
    (by intro j hj different; simpa [different] using h.files.others_free inside held j hj different)
  rw [Function.update_idem, Function.update_self] at shared
  exact ⟨_, h.advance_files inside later valid (by rw [files]; exact shared) put_ne_none
    fun now => absurd now plain⟩

/-- Asking something of the surroundings changes nothing that the programs know. -/
theorem step_aside {action : Action} {next : action.Answer → Program α} {answer : action.Answer}
    (aside : action.isAside = true) (here : programs[i]? = some (.ask action next))
    (performed : Run.perform host action r s = ((answer, r'), s'))
    (plain : ∀ {path handle}, FileCall.create path (.ok handle) ∉ more) :
    Together view cancellations outputOf places Q before own taken
      (programs.set i (next answer)) r' s' (calls ++ more) := by
  have inside := (List.getElem?_eq_some_iff.mp here).1
  obtain ⟨outputs, valid, files⟩ := view.perform_aside aside h.valid performed
  have later := (Program.settles_aside aside).mp (h.settles here) answer
    ⟨r, s, h.calm, h.valid, by rw [performed]⟩
  refine h.advance_unchanged inside later (h.calm.aside aside h.valid performed) valid files ?_ plain
  rw [outputs]
  exact h.outputs

include apart in
/-- The next action of any of the programs. -/
theorem step {action : Action} {next : action.Answer → Program α} {answer : action.Answer}
    (here : programs[i]? = some (.ask action next))
    (performed : Run.perform host action r s = ((answer, r'), s'))
    (notes : Run.Notes r action answer r' more) :
    ∃ own' taken', Together view cancellations outputOf places Q before own' taken'
      (programs.set i (next answer)) r' s' (calls ++ more) := by
  have plain (different : ∀ path, action ≠ .create path) {path : Path} {handle : Handle} :
      FileCall.create path (.ok handle) ∉ more := by
    intro member
    have created := FileCall.mem_created member
    rw [notes.created_eq_nil different] at created
    cases created
  cases action with
  | prepare id => exact ⟨_, _, h.step_prepare here performed (plain nofun)⟩
  | makeDirectories path => exact ⟨_, _, h.step_makeDirectories here performed (plain nofun)⟩
  | claim id name =>
    obtain ⟨taken', later⟩ := h.step_claim apart here performed (plain nofun)
    exact ⟨own, taken', later⟩
  | create path =>
    have noted {q : Path} {handle : Handle} (member : FileCall.create q (.ok handle) ∈ more) :
        q = path ∧ answer = .ok handle := by
      rw [notes.of_create, List.mem_singleton] at member
      cases member
      exact ⟨rfl, rfl⟩
    obtain ⟨own', later⟩ := h.step_create apart here performed noted
    exact ⟨own', taken, later⟩
  | write handle data =>
    obtain ⟨own', later⟩ := h.step_write here performed (plain nofun)
    exact ⟨own', taken, later⟩
  | flush handle =>
    obtain ⟨own', later⟩ := h.step_flush apart here performed (plain nofun)
    exact ⟨own', taken, later⟩
  | drop handle =>
    obtain ⟨own', later⟩ := h.step_drop apart here performed (plain nofun)
    exact ⟨own', taken, later⟩
  | newOutput | cancel => exact (h.settles here).elim
  | read | isFile | isDone | withTimeout | log | call | locate | run =>
    exact ⟨own, taken, h.step_aside rfl here performed (plain nofun)⟩

end Steps

/-! ## From the beginning to the end -/

/-- Programs that have not begun. -/
theorem start (settles : ∀ {i p}, programs[i]? = some p →
      Settles view cancellations (outputOf i) (places i) (Q i) p .empty [])
    (poised : Poised view cancellations outputOf programs.length r s calls) :
    Together view cancellations outputOf places Q (view.files s).contents (fun _ => .empty)
      (fun _ => []) programs r s calls where
  settles := settles
  calm := poised.calm
  valid := poised.valid
  files := ⟨nofun, fun _ => rfl, nofun, nofun, nofun⟩
  outputs := ⟨fun inside => ⟨_, poised.fresh inside, rfl, nofun, by simp⟩, nofun⟩
  created := fun member => absurd member poised.nothing

end Together

/-- What several parties have put, and elsewhere what was there before. -/
structure Overlaid (count : Nat) (before : Path → Option Bytes)
    (finals : Nat → Path → Option Bytes) (after : Path → Option Bytes) : Prop where
  merged : ∀ {i}, i < count → ∀ {path data}, finals i path = some data → after path = some data
  untouched : ∀ {path}, (∀ i < count, finals i path = none) → after path = before path

theorem Overlaid.unique {count : Nat} {before f g : Path → Option Bytes}
    {finals : Nat → Path → Option Bytes} (hf : Overlaid count before finals f)
    (hg : Overlaid count before finals g) : f = g := by
  funext path
  by_cases none : ∀ i < count, finals i path = none
  · rw [hf.untouched none, hg.untouched none]
  · simp only [not_forall] at none
    obtain ⟨i, inside, known⟩ := none
    obtain ⟨data, final⟩ := Option.ne_none_iff_exists'.mp known
    rw [hf.merged inside final, hg.merged inside final]

section Outcome

variable {view : Host.View host} {cancellations : Cancellations} {outputOf : Nat → Output}
  {places : Nat → Path → Prop}

/-- Under every schedule, each program ends as it settles by itself: the files are those that the
programs leave, and no other file is created. -/
theorem Run.executeAll_settles {Q : Nat → α → FileState → List String → Prop}
    {schedule : List Nat} {programs : List (Program α)} {ended : List α} {r r' : Run} {s s' : σ}
    {calls calls' : List FileCall} (apart : PlacesApart programs.length places)
    (settles : ∀ {i} {p : Program α}, programs[i]? = some p →
      Settles view cancellations (outputOf i) (places i) (Q i) p .empty [])
    (poised : Poised view cancellations outputOf programs.length r s calls)
    (h : executeAll host.recorded schedule programs r (s, calls) =
      ((ended, r'), (s', calls'))) :
    ended.length = programs.length ∧ ∃ (own : Nat → FileState) (taken : Nat → List String),
      (∀ {i a}, ended[i]? = some a → Q i a (own i) (taken i)) ∧
      Overlaid programs.length (view.files s).contents (fun i => (own i).contents)
        (view.files s').contents ∧
      ∀ {path handle}, FileCall.create path (.ok handle) ∈ calls' →
        ∃ i < programs.length, (own i).contents path ≠ none := by
  -- what the programs know changes from step to step: the invariant says that they know something
  let Holds (remaining : List (Program α)) (r : Run) (t : σ × List FileCall) : Prop :=
    remaining.length = programs.length ∧ ∃ own taken, Together view cancellations outputOf places Q
      (view.files s).contents own taken remaining r t.1 t.2
  have keeps : Keeps host.recorded Holds := by
    rintro remaining i action next r₁ r₂ ⟨s₁, calls₁⟩ ⟨s₂, calls₂⟩ answer
      ⟨length, own, taken, together⟩ here performed
    obtain ⟨more, recorded, notes⟩ := perform_recorded host action r₁ s₁ calls₁
    rcases plain : perform host action r₁ s₁ with ⟨⟨answer', r₃⟩, s₃⟩
    rw [plain] at recorded notes
    cases recorded.symm.trans performed
    exact ⟨by rw [List.length_set, length],
      together.step (length.symm ▸ apart) here plain notes⟩
  obtain ⟨length, own, taken, together⟩ := keeps.executeAll
    (s := (s, calls)) ⟨rfl, _, _, Together.start settles poised⟩ h
  rw [List.length_map] at length
  have files := together.files
  rw [List.length_map, length] at files
  refine ⟨length, own, taken, ?_, ⟨files.merged, files.untouched⟩, ?_⟩
  · intro i a here
    exact together.settles (p := .done a) (by rw [List.getElem?_map, here]; rfl)
  · intro path handle member
    obtain ⟨i, inside, known⟩ := together.created member
    rw [List.length_map, length] at inside
    exact ⟨i, inside, known⟩

/-- Under every schedule, each program ends with the result and leaves the files that it comes to by
itself, and no other file is created. -/
theorem Run.executeAll_comesTo {results : Nat → α} {finals : Nat → Path → Option Bytes}
    {schedule : List Nat} {programs : List (Program α)} {ended : List α} {r r' : Run} {s s' : σ}
    {calls calls' : List FileCall} (apart : PlacesApart programs.length places)
    (comesTo : ∀ {i} {p : Program α}, programs[i]? = some p →
      p.ComesTo view cancellations (outputOf i) (places i) (results i) (finals i))
    (poised : Poised view cancellations outputOf programs.length r s calls)
    (h : executeAll host.recorded schedule programs r (s, calls) =
      ((ended, r'), (s', calls'))) :
    ended.length = programs.length ∧ (∀ {i a}, ended[i]? = some a → a = results i) ∧
      Overlaid programs.length (view.files s).contents finals (view.files s').contents ∧
      ∀ {path handle}, FileCall.create path (.ok handle) ∈ calls' →
        ∃ i < programs.length, finals i path ≠ none := by
  obtain ⟨length, own, taken, reached, files, created⟩ :=
    executeAll_settles apart (fun here => (comesTo here).settles) poised h
  have kept {i : Nat} (inside : i < programs.length) : (own i).contents = finals i :=
    (reached (List.getElem?_eq_getElem (length.symm ▸ inside))).2
  refine ⟨length, fun here => (reached here).1, ⟨?_, ?_⟩, ?_⟩
  · intro i inside path data final
    exact files.merged inside (by rw [kept inside, final])
  · intro path none
    exact files.untouched fun i inside => by rw [kept inside, none i inside]
  · intro path handle member
    obtain ⟨i, inside, known⟩ := created member
    exact ⟨i, inside, by rwa [kept inside] at known⟩

/-- Works that are done at the same time come to what each comes to by itself. One after another
they come to the first failure among these results, and what was created before it is the same. -/
theorem Run.executeAll_eq_forM {ε : Type} {schedule : List Nat} {works : List (Work ε Unit)}
    {outcomes : Nat → Except (Abort ε) Unit} {finals : Nat → Path → Option Bytes}
    {ended : List (Except (Abort ε) Unit)} {result : Except (Abort ε) Unit} {r₁ r₁' r₂ r₂' : Run}
    {s₁ s₁' s₂ s₂' : σ} {calls₁ calls₁' calls₂ calls₂' : List FileCall}
    (apart : PlacesApart works.length places)
    (comesTo : ∀ {i} {work : Work ε Unit}, works[i]? = some work →
      work.run.ComesTo view cancellations (outputOf i) (places i) (outcomes i) (finals i))
    (poised₁ : Poised view cancellations outputOf works.length r₁ s₁ calls₁)
    (poised₂ : Poised view cancellations outputOf works.length r₂ s₂ calls₂)
    (same : (view.files s₁).contents = (view.files s₂).contents)
    (together : executeAll host.recorded schedule (works.map (·.run)) r₁ (s₁, calls₁) =
      ((ended, r₁'), (s₁', calls₁')))
    (serial : execute host.recorded (works.forM id).run r₂ (s₂, calls₂) =
      ((result, r₂'), (s₂', calls₂'))) :
    ended = (List.range works.length).map outcomes ∧ result = ended.forM id ∧
      (result = .ok () → (view.files s₁').contents = (view.files s₂').contents) ∧
      ∀ {path handle}, FileCall.create path (.ok handle) ∈ calls₂' →
        (view.files s₁').contents path = (view.files s₂').contents path := by
  obtain ⟨count, done, ran, first, all⟩ := execute_forM_eq_executeAll serial
  have settles {front : List (Work ε Unit)} (begun : front <+: works) {i : Nat}
      {p : Program (Except (Abort ε) Unit)} (here : (front.map (·.run))[i]? = some p) :
      p.ComesTo view cancellations (outputOf i) (places i) (outcomes i) (finals i) := by
    rw [List.getElem?_map, Option.map_eq_some_iff] at here
    obtain ⟨work, hwork, rfl⟩ := here
    obtain ⟨rest, rfl⟩ := begun
    exact comesTo ((List.getElem?_append_left (List.getElem?_eq_some_iff.mp hwork).1).trans hwork)
  -- one after another, only the works up to the first failure are begun: `count` of them
  have begun : works.take count <+: works := List.take_prefix count works
  have fewer := begun.length_le
  obtain ⟨length₁, result₁, files₁, -⟩ := executeAll_comesTo (by rwa [List.length_map])
    (settles (List.prefix_refl works)) (by rwa [List.length_map]) together
  obtain ⟨length₂, result₂, files₂, created⟩ := executeAll_comesTo
    (by rw [List.length_map]; exact apart.mono fewer) (settles begun)
    (by rw [List.length_map]; exact poised₂.mono fewer) ran
  rw [List.length_map] at length₁ length₂ files₁ files₂
  have front : done = ended.take count := by
    refine List.ext_getElem (by simp [length₁, length₂]) fun i hi hi' => ?_
    rw [List.getElem_take, result₂ (List.getElem?_eq_getElem hi)]
    exact (result₁ (List.getElem?_eq_getElem _)).symm
  rw [front] at first
  refine ⟨?_, ?_, ?_, ?_⟩
  · refine List.ext_getElem (by simp [length₁]) fun i hi hi' => ?_
    rw [result₁ (List.getElem?_eq_getElem hi), List.getElem_map, List.getElem_range]
  · cases result with
    | error e => exact (forM_eq_error_of_take first).symm
    | ok =>
      rw [← first, List.take_of_length_le]
      rw [length₁, ← congrArg List.length (all rfl)]
      exact List.length_take_le count works
  · intro ended
    rw [all ended, ← same] at files₂
    exact files₁.unique files₂
  · intro path handle member
    obtain ⟨i, inside, known⟩ := created member
    rw [List.length_map] at inside
    obtain ⟨data, final⟩ := Option.ne_none_iff_exists'.mp known
    rw [files₁.merged (Nat.lt_of_lt_of_le inside fewer) final, files₂.merged inside final]

end Outcome

end SchemaCompiler
