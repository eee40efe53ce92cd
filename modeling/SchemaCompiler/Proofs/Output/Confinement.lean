import Mathlib.Tactic.Set
import SchemaCompiler.Proofs.Output.Creating
import SchemaCompiler.Sandbox

/-!
Outputs keep to their directory.

Programs that write through one output, in any order and on any file system, make its directory at
most once and before they create a file, make other directories only inside it, and create each file
once, at the place of an accepted name.
-/

namespace SchemaCompiler

open Program (Stage Along)

variable {σ α : Type}

/-- The call has made the directory. -/
def FileCall.hasMade (directory : Path) : FileCall → Bool
  | makeDirectories path (.ok _) => path.same directory
  | _ => false

theorem Output.Below.not_same {directory path : Path} (h : Output.Below directory path) :
    path.same directory = false := by
  obtain ⟨segments, some, -, components⟩ := h
  refine Bool.eq_false_iff.mpr fun same => some ?_
  simpa [Path.same, components] using same

/-! ## What is made so far -/

/-- How the calls so far bear on the directory of an output. -/
structure Housed (o : Output) (r : Run) (calls : List FileCall) : Prop where
  inside : ∀ path answer, .makeDirectories path answer ∈ calls →
    path = o.directory ∨ Output.Below o.directory path
  unmade : ¬ r.Prepared o.id → calls.countP (·.hasMade o.directory) = 0
  made : r.Prepared o.id → calls.countP (·.hasMade o.directory) = 1
  first : ∀ front path answer back, calls = front ++ .create path answer :: back →
    ∃ call ∈ front, call.hasMade o.directory

namespace Housed

variable {o : Output} {r r' : Run} {calls more : List FileCall}

/-- Another call that makes nothing at the directory itself; if it creates a file, the directory was
made. -/
theorem push (h : Housed o r calls) {call : FileCall} (prepared : r'.Prepared o.id ↔ r.Prepared o.id)
    (quiet : call.hasMade o.directory = false)
    (inside : ∀ path answer, call = .makeDirectories path answer →
      path = o.directory ∨ Output.Below o.directory path)
    (ready : ∀ path answer, call = .create path answer → r.Prepared o.id) :
    Housed o r' (calls ++ [call]) := by
  have count : (calls ++ [call]).countP (·.hasMade o.directory) =
      calls.countP (·.hasMade o.directory) := by
    simp [List.countP_append, quiet]
  constructor
  · intro path answer member
    rcases List.mem_append.mp member with before | now
    · exact h.inside path answer before
    · exact inside path answer (List.mem_singleton.mp now).symm
  · rw [count, prepared]
    exact h.unmade
  · rw [count, prepared]
    exact h.made
  · intro front path answer back split
    obtain rfl | ⟨rest, last, rfl⟩ := List.eq_nil_or_concat back
    · obtain ⟨rfl, same⟩ := List.append_inj' split rfl
      have once := h.made (ready path answer (List.head_eq_of_cons_eq same))
      exact List.countP_pos_iff.mp (Nat.lt_of_lt_of_eq Nat.one_pos once.symm)
    · rw [List.concat_eq_append, ← List.cons_append, ← List.append_assoc] at split
      exact h.first front path answer rest (List.append_inj' split rfl).1

/-- The directory is made. -/
theorem make (h : Housed o r calls) (first : ¬ r.Prepared o.id) (now : r'.Prepared o.id) :
    Housed o r' (calls ++ [.makeDirectories o.directory (.ok ())]) := by
  constructor
  · intro path answer member
    rcases List.mem_append.mp member with before | now
    · exact h.inside path answer before
    · cases List.mem_singleton.mp now
      exact .inl rfl
  · exact fun never => absurd now never
  · intro _
    rw [List.countP_append, h.unmade first]
    simp [FileCall.hasMade, Path.same]
  · intro front path answer back split
    obtain rfl | ⟨rest, last, rfl⟩ := List.eq_nil_or_concat back
    · cases (List.append_inj' split rfl).2
    · rw [List.concat_eq_append, ← List.cons_append, ← List.append_assoc] at split
      exact h.first front path answer rest (List.append_inj' split rfl).1

/-- Calls that neither create files nor make directories do not matter. -/
theorem pass (h : Housed o r calls) (prepared : r'.Prepared o.id ↔ r.Prepared o.id)
    (plain : ∀ call ∈ more, call.creates? = none ∧ call.makes? = none) :
    Housed o r' (calls ++ more) := by
  induction more generalizing calls r with
  | nil =>
    rw [List.append_nil]
    exact ⟨h.inside, by rw [prepared]; exact h.unmade, by rw [prepared]; exact h.made, h.first⟩
  | cons call more ih =>
    rw [List.append_cons]
    obtain ⟨noCreate, noMake⟩ := plain call List.mem_cons_self
    have pushed : Housed o r (calls ++ [call]) := by
      refine h.push Iff.rfl ?_ ?_ ?_
      · cases call <;> first | rfl | cases noMake
      · rintro path answer rfl
        cases noMake
      · rintro path answer rfl
        cases noCreate
    exact ih pushed prepared fun other member => plain other (List.mem_cons_of_mem _ member)

end Housed

/-! ## Steps -/

section Steps

variable {o : Output} {programs : List (Program α)} {r r' : Run} {calls more : List FileCall}
  {stages : Nat → Stage} {i : Nat} {action : Action} {next : action.Answer → Program α}
  {answer : action.Answer}

theorem Run.prepared_claiming {id id' : Nat} {record : OutputRecord} {names : List String}
    (here : r.outputs[id]? = some record) :
    (r.setOutput id { record with claimed := names }).Prepared id' ↔ r.Prepared id' := by
  by_cases same : id = id'
  · subst same
    obtain ⟨inside, rfl⟩ := List.getElem?_eq_some_iff.mp here
    simp [Run.Prepared, inside]
  · simp [Run.Prepared, same]

/-- The next action of a program at its stage. -/
theorem Housed.step (staged : Staged (fun _ => o) programs r stages) (h : Housed o r calls)
    (here : programs[i]? = some (.ask action next)) (notes : Run.Notes r action answer r' more) :
    Housed o r' (calls ++ more) := by
  have along := staged.along here
  have inside : i < programs.length := (List.getElem?_eq_some_iff.mp here).1
  obtain ⟨record, found, directory⟩ := staged.present inside
  cases notes with
  | makesDirectories path answer =>
    obtain ⟨-, below, -⟩ := along
    refine h.push Iff.rfl ?_ ?_ (by simp)
    · cases answer with
      | error => rfl
      | ok => exact below.not_same
    · rintro _ _ ⟨⟩
      exact .inr below
  | creates path answer =>
    obtain ⟨name, stage, -, -⟩ := along
    exact h.push Iff.rfl rfl (by simp) fun _ _ _ => staged.prepared inside (by simp [stage])
  | opensOutput => exact along.elim
  | isPrepared | isClaimed => exact h.pass Iff.rfl (by simp)
  | prepares found' first =>
    obtain ⟨rfl, -, -⟩ := along
    cases found.symm.trans found'
    rw [directory]
    refine h.make ?_ ⟨{ record with prepared := true }, ?_, rfl⟩
    · rintro ⟨record', found', done⟩
      cases found.symm.trans found'
      exact absurd done (by simp [first])
    · simp [(List.getElem?_eq_some_iff.mp found).1, directory]
  | isUnprepared found' =>
    obtain ⟨rfl, -, -⟩ := along
    cases found.symm.trans found'
    refine h.push Iff.rfl rfl ?_ (by simp)
    rintro _ _ ⟨⟩
    exact .inl directory
  | claims found' free => exact h.pass (Run.prepared_claiming found') (by simp)
  | other aside outputs plain =>
    refine h.pass ?_ plain
    simp [Run.Prepared, outputs]

end Steps

/-! ## Whole runs -/

/-- What programs that write through one output may do to the file system. -/
structure Confined (directory : Path) (calls : List FileCall) : Prop where
  /-- Files are created at the places of accepted names. -/
  created : ∀ path ∈ FileCall.created calls, ∃ name, FileName.fault? name = none ∧
    (∀ segment ∈ FileName.segments name, FileName.IsSegment segment.toList) ∧
    path.components = directory.components ++ (FileName.segments name).map .normal
  below : ∀ path ∈ FileCall.created calls, Output.Below directory path
  /-- No file is created twice. -/
  once : (FileCall.created calls).Pairwise fun p q => ¬ p.same q
  /-- The directory is made once at most. -/
  madeOnce : calls.countP (·.hasMade directory) ≤ 1
  /-- It is made before the first file is created. -/
  madeFirst : ∀ front path answer back, calls = front ++ .create path answer :: back →
    ∃ call ∈ front, call.hasMade directory
  /-- Other directories are made inside it. -/
  inside : ∀ path answer, .makeDirectories path answer ∈ calls → ¬ path.same directory →
    Output.Below directory path

section

variable {o : Output} {count : Nat} {r : Run} {calls : List FileCall} {stages : Nat → Stage}
  {origins : List (Nat × String)}
  (accounted : Accounted count (fun _ => o) (fun _ => o.directory) r calls stages origins)
include accounted

theorem Accounted.place {path : Path} (member : path ∈ FileCall.created calls) :
    ∃ name, FileName.fault? name = none ∧ path = placeIn o.directory name := by
  rw [accounted.created] at member
  obtain ⟨origin, kept, rfl⟩ := List.mem_map.mp member
  exact ⟨origin.2, accounted.accepted origin kept, rfl⟩

/-- The names of one output have places of their own. -/
theorem Accounted.once : (FileCall.created calls).Pairwise fun p q => ¬ p.same q := by
  rw [accounted.created, List.pairwise_map]
  refine accounted.distinct.imp_of_mem fun {a b} ha hb different same => ?_
  have names := Output.place_injective ⟨0, o.directory⟩ (accounted.accepted a ha)
    (accounted.accepted b hb) same
  obtain ⟨i, -, hi⟩ := accounted.own a ha
  obtain ⟨j, -, hj⟩ := accounted.own b hb
  exact different (Prod.ext (hi.trans hj.symm) names)

end

theorem Housed.calls_confined {o : Output} {programs : List (Program α)} {r : Run}
    {calls : List FileCall} (h : Housed o r calls)
    (orderly : Orderly (fun _ => o) (fun _ => o.directory) programs r calls) :
    Confined o.directory calls := by
  obtain ⟨stages, origins, -, accounted⟩ := orderly
  constructor
  · intro path member
    obtain ⟨name, accepted, rfl⟩ := accounted.place member
    exact ⟨name, accepted, FileName.isSegment_of_accepted accepted,
      Output.components_place _ accepted⟩
  · intro path member
    obtain ⟨name, accepted, rfl⟩ := accounted.place member
    exact Output.place_below _ accepted
  · exact accounted.once
  · by_cases prepared : r.Prepared o.id
    · exact Nat.le_of_eq (h.made prepared)
    · rw [h.unmade prepared]
      exact Nat.zero_le 1
  · exact h.first
  · intro path answer member different
    obtain rfl | below := h.inside path answer member
    · exact absurd (by simp [Path.same]) different
    · exact below

/-- Programs that have not begun to write through a new output. -/
theorem orderly_new {o : Output} {programs : List (Program α)} {r : Run}
    (through : ∀ p ∈ programs, Program.Through o p)
    (present : r.outputs[o.id]? = some ⟨o.directory, false, []⟩) :
    Orderly (fun _ => o) (fun _ => o.directory) programs r [] := by
  refine ⟨fun _ => .idle, [], ⟨?_, ?_, by simp⟩, ⟨by simp, rfl, by simp, .nil, by simp, ?_, ?_⟩⟩
  · exact fun here => (through _ (List.mem_of_getElem? here)).along
  · exact fun _ => ⟨_, present, rfl⟩
  · intro i name holding
    cases holding
  · intro i j name holding
    cases holding

/-- Programs that write through a new output, carried out in any order on any file system, keep to
its directory. Accepted names have places of their own, and refused names are refused without any
action. -/
theorem Output.confined (host : Host (StateM σ)) (schedule : List Nat) (directory : Path)
    (uses : List (Output → Program α))
    (through : ∀ use ∈ uses, ∀ o, Program.Through o (use o))
    {r r₁ r' : Run} {s s₁ s' : σ} {o : Output} {opening calls : List FileCall} {results : List α}
    (opened : Run.execute host.recorded (Output.new directory) r (s, []) =
      ((o, r₁), (s₁, opening)))
    (h : Run.executeAll host.recorded schedule (uses.map fun use => use o) r₁ (s₁, opening) =
      ((results, r'), (s', calls))) :
    o.directory = directory ∧ Confined directory calls ∧
      (∀ name other, FileName.fault? name = none → FileName.fault? other = none →
        (o.place name).same (o.place other) → name = other) ∧
      ∀ name fault, FileName.fault? name = some fault →
        (o.openFile name).run = .done (.error (.invalidName name fault)) ∧
        ∀ content, (o.writeFile name content).run = .done (.error (.invalidName name fault)) := by
  cases opened
  set o : Output := ⟨r.outputs.length, directory⟩
  have present : (r.outputs ++ [⟨directory, false, []⟩])[o.id]? = some ⟨directory, false, []⟩ := by
    simp [o]
  let Holds (programs : List (Program α)) (r : Run) (calls : List FileCall) : Prop :=
    Housed o r calls ∧ Orderly (fun _ => o) (fun _ => directory) programs r calls
  have keeps : Run.Keeps host.recorded fun programs r s => Holds programs r s.2 := by
    refine Run.keeps_of_notes host Holds fun holds here notes => ⟨?_, ?_⟩
    · obtain ⟨housed, stages, origins, staged, -⟩ := holds
      exact housed.step staged here notes
    · exact holds.2.step (fun _ => rfl) here notes
  have start : Holds (uses.map fun use => use o)
      { r with outputs := r.outputs ++ [⟨directory, false, []⟩] } [] := by
    refine ⟨⟨by simp, fun _ => rfl, ?_, by simp⟩, orderly_new ?_ present⟩
    · rintro ⟨record, found, done⟩
      cases present.symm.trans found
      cases done
    · exact List.forall_mem_map.mpr fun use member => through use member o
  obtain ⟨housed, orderly⟩ := keeps.executeAll start h
  refine ⟨rfl, housed.calls_confined orderly, fun name other => o.place_injective, ?_⟩
  intro name fault refused
  have alone := Output.run_openFile_of_fault (o := o) refused
  refine ⟨alone, fun content => ?_⟩
  rw [Output.run_writeFile, alone]
  rfl

/-- Writes a file in a directory of its own. -/
def Output.writeNested (o : Output) : Program (Except OutputError Unit) :=
  (o.writeFile "pages/a.md" [0x41]).run

/-- Writes it twice through a new output. -/
def Output.writeNestedTwice :
    (List (Except OutputError Unit) × Run) × Sandbox × List FileCall :=
  let host := (Sandbox.host Sandbox.memoryFiles).recorded
  let ((o, r), s) := Run.execute host (Output.new ⟨"out"⟩) (.start .empty) (.empty, [])
  Run.executeAll host [] [o.writeNested, o.writeNested] r s

/-- The file is written, and then its name is refused. -/
theorem Output.writeNestedTwice_confined :
    writeNestedTwice.1.1 = [.ok (), .error (.duplicate "pages/a.md")] ∧
      FileCall.created writeNestedTwice.2.2 = [⟨"out/pages/a.md"⟩] ∧
      Confined ⟨"out"⟩ writeNestedTwice.2.2 := by
  have through : ∀ use ∈ [writeNested, writeNested], ∀ o, Program.Through o (use o) := by
    intro use member o
    have same : use = writeNested := by simpa using member
    exact same ▸ Program.through_writeFile _ _
  refine ⟨rfl, by decide, ?_⟩
  exact (Output.confined (Sandbox.host Sandbox.memoryFiles) [] ⟨"out"⟩ [writeNested, writeNested]
    through (r := .start .empty) (s := .empty) rfl rfl).2.1

end SchemaCompiler
