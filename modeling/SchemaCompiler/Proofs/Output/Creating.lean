import Mathlib.Logic.Function.Basic
import SchemaCompiler.Proofs.FileSystem.Recording
import SchemaCompiler.Proofs.Output.Discipline

/-!
Files are created once by each output.

Several programs, each writing through an output of its own or of others, are carried out in any
order, on any file system. What they create is then accounted for by outputs and accepted names, and
no output creates the file of a name twice.
-/

namespace SchemaCompiler

open Program (Stage Along)

variable {σ α : Type}

namespace Run

/-- The name is taken in an output. -/
def Claimed (r : Run) (id : Nat) (name : String) : Prop :=
  ∃ record, r.outputs[id]? = some record ∧ name ∈ record.claimed

/-- The directory of an output was made. -/
def Prepared (r : Run) (id : Nat) : Prop :=
  ∃ record, r.outputs[id]? = some record ∧ record.prepared = true

variable {r r' : Run} {action : Action} {answer : action.Answer} {more : List FileCall}

theorem outputs_set_getElem? {id id' : Nat} {record changed : OutputRecord}
    (here : r.outputs[id]? = some record) (keep : OutputRecord → Prop)
    (change : keep record → keep changed)
    (h : ∃ found, r.outputs[id']? = some found ∧ keep found) :
    ∃ found, (r.setOutput id changed).outputs[id']? = some found ∧ keep found := by
  obtain ⟨found, hfound, kept⟩ := h
  obtain ⟨inside, -⟩ := List.getElem?_eq_some_iff.mp here
  by_cases same : id = id'
  · subst same
    cases here.symm.trans hfound
    exact ⟨changed, by simp [inside], change kept⟩
  · exact ⟨found, by simp [same, hfound], kept⟩

/-- What holds of the record of an output and is not undone by more notes about it goes on. -/
theorem Notes.keeps (notes : Notes r action answer r' more) {id : Nat}
    {keep : OutputRecord → Prop}
    (prepare : ∀ record, keep record → keep { record with prepared := true })
    (claim : ∀ record name, keep record → keep { record with claimed := name :: record.claimed })
    (h : ∃ record, r.outputs[id]? = some record ∧ keep record) :
    ∃ record, r'.outputs[id]? = some record ∧ keep record := by
  cases notes with
  | makesDirectories | creates | isPrepared | isUnprepared | isClaimed => exact h
  | opensOutput directory =>
    obtain ⟨record, here, kept⟩ := h
    obtain ⟨inside, -⟩ := List.getElem?_eq_some_iff.mp here
    exact ⟨record, (List.getElem?_append_left inside).trans here, kept⟩
  | prepares here first => exact outputs_set_getElem? here keep (prepare _) h
  | claims here free => exact outputs_set_getElem? here keep (claim _ _) h
  | other aside outputs plain => rwa [outputs]

theorem Notes.claimed (notes : Notes r action answer r' more) {id : Nat} {name : String}
    (h : r.Claimed id name) : r'.Claimed id name :=
  notes.keeps (fun _ h => h) (fun _ _ h => List.mem_cons_of_mem _ h) h

theorem Notes.prepared (notes : Notes r action answer r' more) {id : Nat}
    (h : r.Prepared id) : r'.Prepared id :=
  notes.keeps (fun _ _ => rfl) (fun _ _ h => h) h

end Run

/-- The place of a name below the directory of an output. -/
def placeIn (directory : Path) (name : String) : Path := Output.place ⟨0, directory⟩ name

/-! ## How far the programs are -/

/-- Every program writes through its output and is at its stage, which the run bears out. -/
structure Staged (outputOf : Nat → Output) (programs : List (Program α)) (r : Run)
    (stages : Nat → Stage) : Prop where
  along : ∀ {i p}, programs[i]? = some p → Along (outputOf i) (stages i) p
  present : ∀ {i}, i < programs.length → ∃ record,
    r.outputs[(outputOf i).id]? = some record ∧ record.directory = (outputOf i).directory
  prepared : ∀ {i}, i < programs.length → stages i ≠ .idle → r.Prepared (outputOf i).id

section Staged

variable {outputOf : Nat → Output} {programs : List (Program α)} {r r' : Run}
  {stages : Nat → Stage} {i : Nat} {action : Action} {next : action.Answer → Program α}
  {answer : action.Answer} {more : List FileCall}

/-- A program goes on to a stage that the run bears out. -/
theorem Staged.advance (h : Staged outputOf programs r stages)
    (notes : Run.Notes r action answer r' more) {p : Program α} {stage : Stage}
    (along : Along (outputOf i) stage p)
    (prepared : stage ≠ .idle → r'.Prepared (outputOf i).id) :
    Staged outputOf (programs.set i p) r' (Function.update stages i stage) := by
  constructor
  · intro j q here
    by_cases same : j = i
    · subst same
      rw [List.getElem?_set_self (by simpa using (List.getElem?_eq_some_iff.mp here).1)] at here
      cases here
      simpa using along
    · rw [List.getElem?_set_ne (Ne.symm same)] at here
      simpa [same] using h.along here
  · intro j inside
    exact notes.keeps (fun _ h => h) (fun _ _ h => h) (h.present (by simpa using inside))
  · intro j inside started
    by_cases same : j = i
    · subst same
      exact prepared (by simpa using started)
    · exact notes.prepared (h.prepared (by simpa using inside) (by simpa [same] using started))

end Staged

/-! ## Where created files come from -/

/-- Every path that was passed to `create` comes from an output and an accepted name of it, each
once; names that are held come next. -/
structure Accounted (count : Nat) (outputOf : Nat → Output) (directoryOf : Nat → Path) (r : Run)
    (calls : List FileCall) (stages : Nat → Stage) (origins : List (Nat × String)) : Prop where
  own : ∀ origin ∈ origins, ∃ i < count, origin.1 = (outputOf i).id
  created : FileCall.created calls = origins.map fun origin => placeIn (directoryOf origin.1) origin.2
  accepted : ∀ origin ∈ origins, FileName.fault? origin.2 = none
  distinct : origins.Nodup
  claimed : ∀ origin ∈ origins, r.Claimed origin.1 origin.2
  held : ∀ {i name}, stages i = .holding name →
    r.Claimed (outputOf i).id name ∧ ((outputOf i).id, name) ∉ origins ∧ FileName.fault? name = none
  heldOnce : ∀ {i j name}, stages i = .holding name → stages j = .holding name →
    (outputOf i).id = (outputOf j).id → i = j

namespace Accounted

variable {count : Nat} {outputOf : Nat → Output} {directoryOf : Nat → Path} {r r' : Run}
  {calls more : List FileCall} {stages : Nat → Stage} {origins : List (Nat × String)} {i : Nat}
  {action : Action} {answer : action.Answer} {name : String}

/-- A program goes on without creating a file or taking a name. -/
theorem move (h : Accounted count outputOf directoryOf r calls stages origins)
    (notes : Run.Notes r action answer r' more) (nothing : FileCall.created more = [])
    {stage : Stage} (held : ∀ {name}, stage = .holding name → stages i = .holding name) :
    Accounted count outputOf directoryOf r' (calls ++ more) (Function.update stages i stage) origins := by
  have back {j : Nat} {name : String}
      (holding : Function.update stages i stage j = .holding name) :
      stages j = .holding name := by
    by_cases same : j = i
    · subst same
      exact held (by simpa using holding)
    · simpa [same] using holding
  constructor
  · exact h.own
  · rw [FileCall.created_append, nothing, List.append_nil, h.created]
  · exact h.accepted
  · exact h.distinct
  · exact fun origin member => notes.claimed (h.claimed origin member)
  · intro j name holding
    obtain ⟨taken, rest⟩ := h.held (back holding)
    exact ⟨notes.claimed taken, rest⟩
  · intro j k name first second
    exact h.heldOnce (back first) (back second)

/-- A program takes an accepted name that was free. -/
theorem hold (h : Accounted count outputOf directoryOf r calls stages origins)
    (notes : Run.Notes r action answer r' more) (nothing : FileCall.created more = [])
    (free : ¬ r.Claimed (outputOf i).id name) (taken : r'.Claimed (outputOf i).id name)
    (accepted : FileName.fault? name = none) :
    Accounted count outputOf directoryOf r' (calls ++ more)
      (Function.update stages i (.holding name)) origins := by
  have others {j : Nat} {other : String} (different : j ≠ i)
      (holding : Function.update stages i (.holding name) j = .holding other) :
      stages j = .holding other := by
    simpa [different] using holding
  have own {other : String}
      (holding : Function.update stages i (.holding name) i = .holding other) : other = name := by
    simpa [eq_comm] using holding
  constructor
  · exact h.own
  · rw [FileCall.created_append, nothing, List.append_nil, h.created]
  · exact h.accepted
  · exact h.distinct
  · exact fun origin member => notes.claimed (h.claimed origin member)
  · intro j other holding
    by_cases same : j = i
    · subst same
      rw [own holding]
      exact ⟨taken, fun member => free (h.claimed _ member), accepted⟩
    · obtain ⟨before, rest⟩ := h.held (others same holding)
      exact ⟨notes.claimed before, rest⟩
  · intro j k other first second output
    by_cases hj : j = i <;> by_cases hk : k = i
    · rw [hj, hk]
    · subst hj
      rw [own first] at second
      exact absurd (output ▸ (h.held (others hk second)).1) free
    · subst hk
      rw [own second] at first
      exact absurd (output ▸ (h.held (others hj first)).1) free
    · exact h.heldOnce (others hj first) (others hk second) output

/-- A program creates the file of the name that it holds. -/
theorem create (h : Accounted count outputOf directoryOf r calls stages origins)
    (inside : i < count) (holding : stages i = .holding name)
    (directory : (outputOf i).directory = directoryOf (outputOf i).id)
    (answer : Except IoError Handle) :
    Accounted count outputOf directoryOf r (calls ++ [.create ((outputOf i).place name) answer])
      (Function.update stages i .ready) (origins ++ [((outputOf i).id, name)]) := by
  obtain ⟨taken, fresh, accepted⟩ := h.held holding
  have others {j : Nat} {other : String}
      (later : Function.update stages i .ready j = .holding other) :
      j ≠ i ∧ stages j = .holding other := by
    by_cases same : j = i
    · subst same
      simp at later
    · exact ⟨same, by simpa [same] using later⟩
  constructor
  · intro origin member
    rcases List.mem_append.mp member with before | now
    · exact h.own origin before
    · rw [List.mem_singleton.mp now]
      exact ⟨i, inside, rfl⟩
  · rw [FileCall.created_append, h.created, List.map_append, List.map_singleton, ← directory]
    rfl
  · intro origin member
    rcases List.mem_append.mp member with before | now
    · exact h.accepted origin before
    · rw [List.mem_singleton.mp now]
      exact accepted
  · refine List.nodup_append.mpr ⟨h.distinct, by simp, ?_⟩
    rintro origin before other now rfl
    exact fresh (List.mem_singleton.mp now ▸ before)
  · intro origin member
    rcases List.mem_append.mp member with before | now
    · exact h.claimed origin before
    · rw [List.mem_singleton.mp now]
      exact taken
  · intro j other later
    obtain ⟨different, before⟩ := others later
    obtain ⟨claimed, apart, rest⟩ := h.held before
    refine ⟨claimed, fun member => ?_, rest⟩
    rcases List.mem_append.mp member with before' | now
    · exact apart before'
    · have pair := List.mem_singleton.mp now
      simp only [Prod.mk.injEq] at pair
      exact different (h.heldOnce before (pair.2 ▸ holding) pair.1)
  · intro j k other first second
    exact h.heldOnce (others first).2 (others second).2

end Accounted

/-! ## Steps -/

/-- The programs are at some stages, and what was created is accounted for. -/
def Orderly (outputOf : Nat → Output) (directoryOf : Nat → Path) (programs : List (Program α))
    (r : Run) (calls : List FileCall) : Prop :=
  ∃ stages origins, Staged outputOf programs r stages ∧
    Accounted programs.length outputOf directoryOf r calls stages origins

section Orderly

variable {outputOf : Nat → Output} {directoryOf : Nat → Path} {programs : List (Program α)}
  {r r' : Run} {calls more : List FileCall} {stages : Nat → Stage}
  {origins : List (Nat × String)} {i : Nat} {action : Action}
  {next : action.Answer → Program α} {answer : action.Answer}

/-- The next action of a program at its stage, with what comes after it: the stages that it may
lead to. -/
theorem Orderly.step (directory : ∀ i, (outputOf i).directory = directoryOf (outputOf i).id)
    (h : Orderly outputOf directoryOf programs r calls)
    (here : programs[i]? = some (.ask action next)) (notes : Run.Notes r action answer r' more) :
    Orderly outputOf directoryOf (programs.set i (next answer)) r' (calls ++ more) := by
  obtain ⟨stages, origins, staged, accounted⟩ := h
  have along := staged.along here
  have inside : i < programs.length := (List.getElem?_eq_some_iff.mp here).1
  unfold Orderly
  rw [List.length_set]
  cases notes with
  | makesDirectories path answer =>
    obtain ⟨stage, -, later⟩ := along
    have notes := Run.Notes.makesDirectories (r := r) path answer
    exact ⟨_, _, staged.advance notes (later answer) fun _ => staged.prepared inside (by simp [stage]),
      accounted.move notes rfl (by simp)⟩
  | creates path answer =>
    obtain ⟨name, stage, rfl, later⟩ := along
    have notes := Run.Notes.creates (r := r) ((outputOf i).place name) answer
    exact ⟨_, _, staged.advance notes (later answer) fun _ => staged.prepared inside (by simp [stage]),
      accounted.create inside stage (directory i) answer⟩
  | opensOutput => exact along.elim
  | isPrepared done =>
    obtain ⟨rfl, -, later⟩ := along
    have notes := Run.Notes.isPrepared done
    obtain ⟨record, found, -⟩ := staged.present inside
    exact ⟨_, _, staged.advance notes later fun _ => ⟨record, found, done record found⟩,
      accounted.move notes rfl (by simp)⟩
  | @prepares id record found first =>
    obtain ⟨rfl, -, later⟩ := along
    have notes := Run.Notes.prepares found first
    refine ⟨_, _, staged.advance notes later fun _ => ⟨{ record with prepared := true }, ?_, rfl⟩,
      accounted.move notes rfl (by simp)⟩
    simp [(List.getElem?_eq_some_iff.mp found).1]
  | @isUnprepared id record e found =>
    obtain ⟨rfl, later, -⟩ := along
    have notes := Run.Notes.isUnprepared (e := e) found
    exact ⟨_, _, staged.advance notes (later _) (by simp), accounted.move notes rfl (by simp)⟩
  | @claims id name record found free =>
    obtain ⟨stage, rfl, accepted, later, -⟩ := along
    have notes := Run.Notes.claims found free
    refine ⟨_, _, staged.advance notes later fun _ =>
        notes.prepared (staged.prepared inside (by simp [stage])),
      accounted.hold notes rfl ?_ ?_ accepted⟩
    · rintro ⟨record', found', taken⟩
      cases found.symm.trans found'
      exact free taken
    · refine ⟨{ record with claimed := name :: record.claimed }, ?_, List.mem_cons_self⟩
      simp [(List.getElem?_eq_some_iff.mp found).1]
  | isClaimed taken =>
    obtain ⟨stage, rfl, -, -, later⟩ := along
    have notes := Run.Notes.isClaimed taken
    exact ⟨_, _, staged.advance notes later fun _ => staged.prepared inside (by simp [stage]),
      accounted.move notes rfl (by simp)⟩
  | other aside outputs plain =>
    have notes : Run.Notes r action answer r' more := .other aside outputs plain
    have later : Along (outputOf i) (stages i) (next answer) := by
      cases action <;> first | exact along answer | cases aside
    have nothing : FileCall.created more = [] :=
      List.filterMap_eq_nil_iff.mpr fun call member => (plain call member).1
    exact ⟨_, _, staged.advance notes later fun started =>
        notes.prepared (staged.prepared inside started),
      accounted.move notes nothing id⟩

end Orderly

/-! ## Opening a file again -/

/-- Making a directory creates no file and leaves the names as they are. -/
theorem execute_makeParent (host : Host (StateM σ)) (o : Output) (name : String) (r : Run) (s : σ)
    (calls : List FileCall) :
    ∃ result s' more,
      Run.execute host.recorded (o.makeParent name).run r (s, calls) =
        ((result, r), (s', calls ++ more)) ∧ FileCall.created more = [] := by
  have nothing : ∃ result s' more,
      Run.execute host.recorded (.done (.ok ()) : Program (Except OutputError Unit)) r (s, calls) =
        ((result, r), (s', calls ++ more)) ∧ FileCall.created more = [] :=
    ⟨_, _, [], by rw [List.append_nil]; rfl, rfl⟩
  cases nested : name.toList.contains '/' with
  | false => rwa [Output.run_makeParent_flat nested]
  | true =>
    rcases here : (o.place name).parent? with - | parent
    · unfold Output.makeParent
      rwa [nested, here]
    · rw [Output.run_makeParent_nested nested here]
      obtain ⟨made, r', s', more, h, notes⟩ :=
        Run.execute_recorded_ask host (.makeDirectories parent) _ r s calls
      rw [h]
      have nothing := notes.created_eq_nil (by simp)
      cases notes with
      | makesDirectories _ answer => cases made <;> exact ⟨_, _, _, rfl, nothing⟩
      | other aside => cases aside

/-- A name that is taken cannot be opened again, and no file is created in the attempt. -/
theorem execute_openFile_claimed (host : Host (StateM σ)) {o : Output} {name : String} {r : Run}
    (claimed : r.Claimed o.id name) (s : σ) (calls : List FileCall) :
    ∃ e r' s' more,
      Run.execute host.recorded (o.openFile name).run r (s, calls) =
        ((.error e, r'), (s', calls ++ more)) ∧ FileCall.created more = [] := by
  rcases accepted : FileName.fault? name with - | fault
  · rw [Output.run_openFile accepted]
    obtain ⟨prepared, r₁, s₁, first, h, notes⟩ :=
      Run.execute_recorded_ask host (.prepare o.id) _ r s calls
    have nothing := notes.created_eq_nil (by simp)
    rw [h]
    obtain e | ⟨⟩ := prepared
    · exact ⟨_, _, _, first, rfl, nothing⟩
    obtain ⟨parent, s₂, second, hparent, nothing'⟩ :=
      execute_makeParent host o name r₁ s₁ (calls ++ first)
    rw [Run.execute_bind _ _ hparent]
    have both : FileCall.created (first ++ second) = [] := by
      rw [FileCall.created_append, nothing, nothing']
      rfl
    obtain e | ⟨⟩ := parent
    · exact ⟨_, _, _, first ++ second, by rw [← List.append_assoc]; rfl, both⟩
    obtain ⟨record, found, taken⟩ := notes.claimed claimed
    have refused : Run.perform host.recorded (.claim o.id name) r₁ (s₂, calls ++ first ++ second) =
        ((false, r₁), (s₂, calls ++ first ++ second)) := by
      rw [Run.perform_claim, found]
      simp [taken]
    rw [Run.execute_ask _ refused]
    exact ⟨_, _, _, first ++ second, by rw [← List.append_assoc]; rfl, both⟩
  · rw [Output.run_openFile_of_fault accepted]
    exact ⟨_, _, _, [], by rw [List.append_nil]; rfl, rfl⟩

end SchemaCompiler
