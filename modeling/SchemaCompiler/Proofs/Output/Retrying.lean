import Mathlib.Tactic.Set
import SchemaCompiler.Proofs.Output.Creating
import SchemaCompiler.Sandbox

/-!
Opening a file again after a failure.

An output takes a name just before it asks for the file, and keeps it even if the file system
refuses to create the file. So the names that are taken are those whose files it has asked for. An
attempt that fails earlier takes nothing and can be repeated; one that fails at this last step
cannot.
-/

namespace SchemaCompiler

open Program (Through EndsWith)

variable {σ α : Type}

/-! ## One attempt -/

/-- What an attempt to open a file comes to, with the names taken before and after it and the calls
that it makes. -/
inductive Output.Attempt (o : Output) (name : String) (taken : List String) :
    Except OutputError OutputFile → List String → List FileCall → Prop where
  | badName {fault : FileName.Fault} (refused : FileName.fault? name = some fault) :
    Attempt o name taken (.error (.invalidName name fault)) taken []
  | noDirectory {path : Path} {refusal : IoError} {calls : List FileCall}
    (nothing : FileCall.created calls = []) :
    Attempt o name taken (.error (.io path refusal)) taken calls
  | duplicate {calls : List FileCall} (nothing : FileCall.created calls = [])
    (known : name ∈ taken) : Attempt o name taken (.error (.duplicate name)) taken calls
  | uncreated {refusal : IoError} {calls : List FileCall} (nothing : FileCall.created calls = [])
    (accepted : FileName.fault? name = none) (free : name ∉ taken) :
    Attempt o name taken (.error (.io (o.place name) refusal)) (name :: taken)
      (calls ++ [.create (o.place name) (.error refusal)])
  | created {handle : Handle} {calls : List FileCall} (nothing : FileCall.created calls = [])
    (accepted : FileName.fault? name = none) (free : name ∉ taken) :
    Attempt o name taken (.ok ⟨o.place name, handle⟩) (name :: taken)
      (calls ++ [.create (o.place name) (.ok handle)])

variable {o : Output} {name : String} {r : Run} {record : OutputRecord}

theorem Run.claimed_iff_mem (here : r.outputs[o.id]? = some record) (name : String) :
    r.Claimed o.id name ↔ name ∈ record.claimed := by
  constructor
  · rintro ⟨record', found, member⟩
    cases here.symm.trans found
    exact member
  · exact fun member => ⟨record, here, member⟩

namespace Output.Attempt

variable {taken after : List String} {calls : List FileCall}
  {result : Except OutputError OutputFile}

/-- An attempt that fails takes no name unless its file could not be created. -/
theorem keeps_iff {e : OutputError} (h : o.Attempt name taken (.error e) after calls) :
    (∀ other, other ∈ after ↔ other ∈ taken) ↔
      ∀ refusal, .create (o.place name) (.error refusal) ∉ calls := by
  have unasked {calls : List FileCall} (nothing : FileCall.created calls = []) (refusal : IoError) :
      .create (o.place name) (.error refusal) ∉ calls := by
    intro member
    have asked := FileCall.mem_created member
    rw [nothing] at asked
    cases asked
  cases h with
  | badName => exact iff_of_true (fun _ => Iff.rfl) (unasked rfl)
  | noDirectory nothing => exact iff_of_true (fun _ => Iff.rfl) (unasked nothing)
  | duplicate nothing => exact iff_of_true (fun _ => Iff.rfl) (unasked nothing)
  | @uncreated refusal front nothing accepted free =>
    have changed : ¬ ∀ other, other ∈ name :: taken ↔ other ∈ taken :=
      fun same => free ((same name).mp List.mem_cons_self)
    have asked : .create (o.place name) (.error refusal) ∈
        front ++ [.create (o.place name) (.error refusal)] := by simp
    exact iff_of_false changed fun none => none refusal asked

theorem known_of_duplicate (h : o.Attempt name taken (.error (.duplicate name)) after calls) :
    name ∈ taken := by
  cases h with
  | duplicate _ known => exact known

/-- A taken name cannot be opened, and its file is not asked for. -/
theorem of_known (h : o.Attempt name taken result after calls) (known : name ∈ taken) :
    ∃ e, result = .error e ∧ FileCall.created calls = [] := by
  cases h with
  | badName => exact ⟨_, rfl, rfl⟩
  | noDirectory nothing => exact ⟨_, rfl, nothing⟩
  | duplicate nothing => exact ⟨_, rfl, nothing⟩
  | uncreated _ _ free => exact absurd known free
  | created _ _ free => exact absurd known free

end Output.Attempt

/-- Making the directory for a name fails only if the file system refuses it. -/
theorem Output.makeParent_ends (o : Output) (name : String) :
    EndsWith (fun result => ∀ e, result = .error e → ∃ path refusal, e = .io path refusal)
      (o.makeParent name).run := by
  have fine : EndsWith (fun result : Except OutputError Unit =>
      ∀ e, result = .error e → ∃ path refusal, e = .io path refusal) (.done (.ok ())) :=
    .done (by simp)
  cases nested : name.toList.contains '/' with
  | false =>
    rw [Output.run_makeParent_flat nested]
    exact fine
  | true =>
    rcases here : (o.place name).parent? with - | parent
    · unfold Output.makeParent
      rw [nested, here]
      exact fine
    · rw [Output.run_makeParent_nested nested here]
      refine .ask fun answer => ?_
      obtain refusal | ⟨⟩ := answer
      · apply EndsWith.done
        rintro e ⟨⟩
        exact ⟨parent, refusal, rfl⟩
      · exact fine

/-- Preparing an output takes no name and creates no file. -/
theorem execute_prepare_recorded (host : Host (StateM σ))
    (next : Except IoError Unit → Program α) (here : r.outputs[o.id]? = some record) (s : σ)
    (calls : List FileCall) :
    ∃ prepared r' s' more record',
      Run.execute host.recorded (.ask (.prepare o.id) next) r (s, calls) =
        Run.execute host.recorded (next prepared) r' (s', calls ++ more) ∧
      FileCall.created more = [] ∧ r'.outputs[o.id]? = some record' ∧
      record'.claimed = record.claimed := by
  obtain ⟨prepared, r', s', more, h, notes⟩ :=
    Run.execute_recorded_ask host (.prepare o.id) next r s calls
  have nothing := notes.created_eq_nil (by simp)
  refine ⟨prepared, r', s', more, ?_⟩
  cases notes with
  | isPrepared | isUnprepared => exact ⟨record, h, nothing, here, rfl⟩
  | @prepares _ found there =>
    cases here.symm.trans there
    have inside := (List.getElem?_eq_some_iff.mp here).1
    exact ⟨{ record with prepared := true }, h, nothing, by simp [inside], rfl⟩
  | other aside => cases aside

theorem execute_claim_recorded (host : Host (StateM σ)) (name : String) (next : Bool → Program α)
    (here : r.outputs[o.id]? = some record) (s : σ) (calls : List FileCall) :
    Run.execute host.recorded (.ask (.claim o.id name) next) r (s, calls) =
      if name ∈ record.claimed then Run.execute host.recorded (next false) r (s, calls)
      else Run.execute host.recorded (next true)
        (r.setOutput o.id { record with claimed := name :: record.claimed }) (s, calls) := by
  have claim := @Run.perform_claim _ host.recorded o.id name r (s, calls)
  rw [here] at claim
  dsimp only at claim
  by_cases known : name ∈ record.claimed
  · rw [if_pos (List.contains_iff_mem.mpr known)] at claim
    rw [if_pos known]
    exact Run.execute_ask next claim
  · rw [if_neg (mt List.contains_iff_mem.mp known)] at claim
    rw [if_neg known]
    exact Run.execute_ask next claim

/-- On every file system, opening a file is one of the attempts. -/
theorem execute_openFile_attempt (host : Host (StateM σ)) (name : String)
    (here : r.outputs[o.id]? = some record) (s : σ) (calls : List FileCall) :
    ∃ result r' s' more record',
      Run.execute host.recorded (o.openFile name).run r (s, calls) =
        ((result, r'), (s', calls ++ more)) ∧
      r'.outputs[o.id]? = some record' ∧
      o.Attempt name record.claimed result record'.claimed more := by
  rcases accepted : FileName.fault? name with - | fault
  case some =>
    rw [Output.run_openFile_of_fault accepted]
    refine ⟨_, r, s, [], record, ?_, here, .badName accepted⟩
    rw [List.append_nil]
    rfl
  rw [Output.run_openFile accepted]
  -- the directories, which take no name
  obtain ⟨prepared, r₁, s₁, first, record₁, begun, none_first, here₁, same⟩ :=
    execute_prepare_recorded host _ here s calls
  rw [begun, ← same]
  obtain refusal | ⟨⟩ := prepared
  · exact ⟨_, r₁, s₁, first, record₁, rfl, here₁, .noDirectory none_first⟩
  obtain ⟨parent, s₂, second, made, none_second⟩ :=
    execute_makeParent host o name r₁ s₁ (calls ++ first)
  have refused := Run.execute_ends (o.makeParent_ends name) made
  have nothing : FileCall.created (first ++ second) = [] := by
    rw [FileCall.created_append, none_first, none_second]
    rfl
  rw [List.append_assoc] at made
  rw [Run.execute_bind _ _ made]
  obtain e | ⟨⟩ := parent
  · obtain ⟨path, refusal, rfl⟩ := refused e rfl
    exact ⟨_, r₁, s₂, first ++ second, record₁, rfl, here₁, .noDirectory nothing⟩
  -- the name, and then the file
  dsimp only
  rw [execute_claim_recorded host name _ here₁]
  by_cases known : name ∈ record₁.claimed
  · rw [if_pos known]
    exact ⟨_, r₁, s₂, first ++ second, record₁, rfl, here₁, .duplicate nothing known⟩
  rw [if_neg known]
  set r₂ := r₁.setOutput o.id { record₁ with claimed := name :: record₁.claimed }
  have here₂ : r₂.outputs[o.id]? = some { record₁ with claimed := name :: record₁.claimed } := by
    simp [r₂, (List.getElem?_eq_some_iff.mp here₁).1]
  obtain ⟨answer, r₃, s₃, last, ended, notes⟩ :=
    Run.execute_recorded_ask host (.create (o.place name)) _ r₂ s₂ (calls ++ (first ++ second))
  have one := notes.of_create
  have here₃ : r₃.outputs[o.id]? = some { record₁ with claimed := name :: record₁.claimed } := by
    cases notes with
    | creates => exact here₂
    | other aside => cases aside
  rw [ended, List.append_assoc, one]
  cases answer with
  | error refusal => exact ⟨_, r₃, s₃, _, _, rfl, here₃, .uncreated nothing accepted known⟩
  | ok handle => exact ⟨_, r₃, s₃, _, _, rfl, here₃, .created nothing accepted known⟩

/-! ## Many attempts -/

/-- The file of the name was asked for; it may have been refused. -/
def Output.Tried (o : Output) (calls : List FileCall) (name : String) : Prop :=
  FileName.fault? name = none ∧ ∃ answer, .create (o.place name) answer ∈ calls

/-- The names that are taken are those whose files were asked for. -/
def Output.KeepsTried (o : Output) (r : Run) (calls : List FileCall) : Prop :=
  ∃ record, r.outputs[o.id]? = some record ∧ ∀ name, name ∈ record.claimed ↔ o.Tried calls name

variable {r' : Run} {calls more : List FileCall}

theorem Output.tried_append_iff (o : Output) (calls more : List FileCall) (name : String) :
    o.Tried (calls ++ more) name ↔ o.Tried calls name ∨ o.Tried more name := by
  unfold Output.Tried
  simp only [List.mem_append, exists_or, and_or_left]

theorem Output.not_tried (nothing : FileCall.created more = []) (name : String) :
    ¬ o.Tried more name := by
  rintro ⟨-, asked⟩
  obtain ⟨answer, member⟩ := asked
  have created := FileCall.mem_created member
  rw [nothing] at created
  cases created

theorem Output.tried_create_iff (accepted : FileName.fault? name = none)
    (nothing : FileCall.created calls = []) (answer : Except IoError Handle) (other : String) :
    o.Tried (calls ++ [.create (o.place name) answer]) other ↔ other = name := by
  rw [Output.tried_append_iff]
  constructor
  · rintro (before | ⟨accepted', answer', member⟩)
    · exact absurd before (Output.not_tried nothing other)
    · have places : o.place other = o.place name :=
        Option.some.inj (congrArg FileCall.creates? (List.mem_singleton.mp member))
      apply o.place_injective accepted' accepted
      simp [Path.same, places]
  · rintro rfl
    exact .inr ⟨accepted, answer, List.mem_singleton.mpr rfl⟩

/-- An attempt takes the name whose file it asks for. -/
theorem Output.Attempt.taken_iff {taken after : List String}
    {result : Except OutputError OutputFile} (h : o.Attempt name taken result after more)
    (before : ∀ other, other ∈ taken ↔ o.Tried calls other) (other : String) :
    other ∈ after ↔ o.Tried (calls ++ more) other := by
  rw [Output.tried_append_iff]
  cases h with
  | badName =>
    have none : ¬ o.Tried [] other := Output.not_tried rfl other
    simp [before, none]
  | noDirectory nothing => simp [before, Output.not_tried nothing]
  | duplicate nothing => simp [before, Output.not_tried nothing]
  | uncreated nothing accepted =>
    rw [Output.tried_create_iff accepted nothing, List.mem_cons, before, or_comm]
  | created nothing accepted =>
    rw [Output.tried_create_iff accepted nothing, List.mem_cons, before, or_comm]

theorem Output.KeepsTried.openFile (host : Host (StateM σ)) (h : o.KeepsTried r calls)
    (name : String) (s : σ) :
    ∃ result r' s' more,
      Run.execute host.recorded (o.openFile name).run r (s, calls) =
        ((result, r'), (s', calls ++ more)) ∧ o.KeepsTried r' (calls ++ more) := by
  obtain ⟨record, here, before⟩ := h
  obtain ⟨result, r', s', more, record', ran, there, attempt⟩ :=
    execute_openFile_attempt host name here s calls
  exact ⟨result, r', s', more, ran, record', there, attempt.taken_iff before⟩

/-- Actions that have nothing to do with outputs take no name. -/
theorem Output.KeepsTried.ask (host : Host (StateM σ)) (h : o.KeepsTried r calls) (action : Action)
    (aside : action.isOnOutput = false) (next : action.Answer → Program α) (s : σ) :
    ∃ answer r' s' more,
      Run.execute host.recorded (.ask action next) r (s, calls) =
        Run.execute host.recorded (next answer) r' (s', calls ++ more) ∧
      o.KeepsTried r' (calls ++ more) := by
  obtain ⟨answer, r', s', more, ran, notes⟩ := Run.execute_recorded_ask host action next r s calls
  refine ⟨answer, r', s', more, ran, ?_⟩
  obtain ⟨record, here, before⟩ := h
  cases notes with
  | other _ outputs plain =>
    have nothing : FileCall.created more = [] :=
      List.filterMap_eq_nil_iff.mpr fun call member => (plain call member).1
    refine ⟨record, by rw [outputs, here], fun name => ?_⟩
    simp [before, Output.tried_append_iff, Output.not_tried nothing]
  | _ => cases aside

/-- Whatever a program does that writes only through the output, the names that are taken are those
whose files were asked for. -/
theorem Program.Through.keepsTried {p : Program α} (h : Through o p) (host : Host (StateM σ))
    {s s' : σ} {after : List FileCall} {a : α} (before : o.KeepsTried r calls)
    (ran : Run.execute host.recorded p r (s, calls) = ((a, r'), (s', after))) :
    o.KeepsTried r' after := by
  induction h generalizing r s calls with
  | done b =>
    cases ran
    exact before
  | openFile name _ ih =>
    obtain ⟨result, r₁, s₁, more, opened, kept⟩ := before.openFile host name s
    rw [Run.execute_bind _ _ opened] at ran
    exact ih result kept ran
  | write file data _ ih =>
    rw [OutputFile.run_write] at ran
    split at ran
    · exact ih _ before ran
    · obtain ⟨answer, r₁, s₁, more, asked, kept⟩ := before.ask host (.write _ _) rfl _ s
      exact ih answer kept (asked.symm.trans ran)
  | flush file _ ih =>
    obtain ⟨answer, r₁, s₁, more, asked, kept⟩ := before.ask host (.flush _) rfl _ s
    exact ih answer kept (asked.symm.trans ran)
  | close file _ ih =>
    rw [OutputFile.run_close] at ran
    obtain ⟨flushed, r₁, s₁, more, asked, kept⟩ := before.ask host (.flush _) rfl _ s
    obtain ⟨⟨⟩, r₂, s₂, last, dropped, kept'⟩ := kept.ask host (.drop _) rfl _ s₁
    exact ih _ kept' (dropped.symm.trans (asked.symm.trans ran))
  | drop file _ ih =>
    obtain ⟨flushed, r₁, s₁, more, asked, kept⟩ := before.ask host (.flush _) rfl _ s
    obtain ⟨⟨⟩, r₂, s₂, last, dropped, kept'⟩ := kept.ask host (.drop _) rfl _ s₁
    exact ih _ kept' (dropped.symm.trans (asked.symm.trans ran))
  | @other action aside next _ ih =>
    have unrelated : action.isOnOutput = false := by
      cases action <;> first | rfl | cases aside
    obtain ⟨answer, r₁, s₁, more, asked, kept⟩ := before.ask host action unrelated next s
    exact ih answer kept (asked.symm.trans ran)

/-! ## Failures -/

/-- After any use of an output, on any file system, the names regarded as written are those whose
files it asked for. An attempt to open a file that fails leaves them as they are unless creating
the file was what failed; a name is a duplicate only if its file was asked for before, and once it
was, whatever the answer, the name cannot be opened and its file is not asked for again. -/
theorem Output.failure_keeps_names_unless_uncreated (host : Host (StateM σ)) (directory : Path)
    (use : Output → Program α) (through : ∀ o, Through o (use o)) (name : String)
    {r r₁ r₂ r₃ : Run} {s s₁ s₂ s₃ : σ} {o : Output} {opening calls after : List FileCall} {a : α}
    {result : Except OutputError OutputFile}
    (opened : Run.execute host.recorded (Output.new directory) r (s, []) =
      ((o, r₁), (s₁, opening)))
    (used : Run.execute host.recorded (use o) r₁ (s₁, opening) = ((a, r₂), (s₂, calls)))
    (attempted : Run.execute host.recorded (o.openFile name).run r₂ (s₂, calls) =
      ((result, r₃), (s₃, after))) :
    ∃ more, after = calls ++ more ∧
      (∀ other, r₂.Claimed o.id other ↔ o.Tried calls other) ∧
      (∀ e, result = .error e →
        ((∀ other, r₃.Claimed o.id other ↔ r₂.Claimed o.id other) ↔
          ∀ refusal, .create (o.place name) (.error refusal) ∉ more)) ∧
      (result = .error (.duplicate name) → o.Tried calls name) ∧
      (o.Tried calls name → ∃ e, result = .error e ∧ FileCall.created more = []) := by
  cases opened
  have start : Output.KeepsTried ⟨r.outputs.length, directory⟩
      { r with outputs := r.outputs ++ [⟨directory, false, []⟩] } [] := by
    refine ⟨⟨directory, false, []⟩, by simp, fun other => ?_⟩
    simp [Output.Tried]
  obtain ⟨record, here, before⟩ := (through _).keepsTried host start used
  obtain ⟨result', r', s', more, record', ran, there, attempt⟩ :=
    execute_openFile_attempt host name here s₂ calls
  cases ran.symm.trans attempted
  have claimed := Run.claimed_iff_mem here
  have claimed' := Run.claimed_iff_mem there
  refine ⟨more, rfl, fun other => (claimed other).trans (before other), ?_, ?_, ?_⟩
  · rintro e rfl
    simp only [claimed, claimed']
    exact attempt.keeps_iff
  · rintro rfl
    exact (before name).mp attempt.known_of_duplicate
  · intro tried
    exact attempt.of_known ((before name).mpr tried)

/-- A new output on files of which one cannot be created. -/
def outputBeforeRefusal : (Output × Run) × Sandbox × List FileCall :=
  let memory : Memory := { Memory.empty with failing := [(.create, ⟨"out/a.txt"⟩)] }
  Run.execute (Sandbox.host Sandbox.memoryFiles).recorded (Output.new ⟨"out"⟩) (.start .empty)
    ({ Sandbox.empty with memory }, [])

/-- An attempt to open the file that cannot be created. -/
def attemptRefused (r : Run) (s : Sandbox × List FileCall) :
    (Except OutputError OutputFile × Run) × Sandbox × List FileCall :=
  Run.execute (Sandbox.host Sandbox.memoryFiles).recorded
    (outputBeforeRefusal.1.1.openFile "a.txt").run r s

/-- The file is not created by the first attempt, and yet a second one is told that it was written
already. -/
theorem Output.uncreated_file_already_written :
    let first := attemptRefused outputBeforeRefusal.1.2 outputBeforeRefusal.2
    let second := attemptRefused first.1.2 first.2
    first.1.1 = .error (.io ⟨"out/a.txt"⟩ Memory.injected) ∧
      second.1.1 = .error (.duplicate "a.txt") ∧ second.2.1.memory.files = [] ∧
      ¬ outputBeforeRefusal.1.2.Claimed 0 "a.txt" ∧ first.1.2.Claimed 0 "a.txt" ∧
      outputBeforeRefusal.1.1.Tried first.2.2 "a.txt" ∧
      ∃ more, second.2.2 = first.2.2 ++ more ∧ FileCall.created more = [] := by
  intro first second
  have through : ∀ o : Output, Through o (o.openFile "a.txt").run := by
    intro o
    rw [← Program.bind_done (o.openFile "a.txt").run]
    exact .openFile "a.txt" .done
  have opened : Run.execute (Sandbox.host Sandbox.memoryFiles).recorded (Output.new ⟨"out"⟩)
      (.start .empty) ({ Sandbox.empty with
        memory := { Memory.empty with failing := [(.create, ⟨"out/a.txt"⟩)] } }, []) =
      ((outputBeforeRefusal.1.1, outputBeforeRefusal.1.2),
        (outputBeforeRefusal.2.1, outputBeforeRefusal.2.2)) := rfl
  have used : Run.execute (Sandbox.host Sandbox.memoryFiles).recorded
      (outputBeforeRefusal.1.1.openFile "a.txt").run outputBeforeRefusal.1.2
      (outputBeforeRefusal.2.1, outputBeforeRefusal.2.2) =
      ((first.1.1, first.1.2), (first.2.1, first.2.2)) := rfl
  have attempted : Run.execute (Sandbox.host Sandbox.memoryFiles).recorded
      (outputBeforeRefusal.1.1.openFile "a.txt").run first.1.2 (first.2.1, first.2.2) =
      ((second.1.1, second.1.2), (second.2.1, second.2.2)) := rfl
  have refused : second.1.1 = .error (.duplicate "a.txt") := rfl
  obtain ⟨more, split, names, -, tried, again⟩ :=
    Output.failure_keeps_names_unless_uncreated _ ⟨"out"⟩ (fun o => (o.openFile "a.txt").run)
      through "a.txt" opened used attempted
  have asked := tried refused
  obtain ⟨-, -, nothing⟩ := again asked
  refine ⟨rfl, refused, rfl, ?_, (names "a.txt").mpr asked, asked, more, split, nothing⟩
  rintro ⟨record, found, member⟩
  cases found
  cases member

end SchemaCompiler
