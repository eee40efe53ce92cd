import Mathlib.Tactic.Set
import SchemaCompiler.Pipeline
import SchemaCompiler.Proofs.Program.Interleaving

/-!
The calls of a run: every activated entry has an output of its own, and its generator is called for
every document through that output.
-/

namespace SchemaCompiler.Pipeline

variable {σ : Type}

/-- The activated entries among entries that are counted from `index`, with outputs that are counted
from `id`. -/
def actives : (index id : Nat) → List (Entry Generator) → List ActiveEntry
  | _, _, [] => []
  | index, id, entry :: entries =>
    if entry.activated then
      ⟨index, entry, ⟨id, entry.directory⟩⟩ :: actives (index + 1) (id + 1) entries
    else actives (index + 1) id entries

theorem map_entry_actives (index id : Nat) (entries : List (Entry Generator)) :
    (actives index id entries).map (·.entry) = entries.filter (·.activated) := by
  induction entries generalizing index id with
  | nil => rfl
  | cons entry entries ih => cases activated : entry.activated <;> simp [actives, activated, ih]

/-- The outputs are numbered in the order of the activated entries. -/
theorem output_of_actives {index id k : Nat} {entries : List (Entry Generator)} {a : ActiveEntry}
    (h : (actives index id entries)[k]? = some a) : a.output = ⟨id + k, a.entry.directory⟩ := by
  induction entries generalizing index id k with
  | nil => simp [actives] at h
  | cons entry entries ih =>
    cases activated : entry.activated with
    | false => exact ih (by simpa [actives, activated] using h)
    | true =>
      simp only [actives, activated, if_true] at h
      cases k with
      | zero =>
        cases h
        rfl
      | succ k => rw [ih h, Nat.add_assoc, Nat.add_comm 1 k]

theorem entry_of_actives {index id k : Nat} {entries : List (Entry Generator)} {a : ActiveEntry}
    (h : (actives index id entries)[k]? = some a) :
    (entries.filter (·.activated))[k]? = some a.entry := by
  rw [← map_entry_actives index id, List.getElem?_map, h]
  rfl

theorem actives_of_only {entries : List (Entry Generator)} {entry : Entry Generator}
    (only : entries.filter (·.activated) = [entry]) (index id : Nat) :
    ∃ k, actives index id entries = [⟨k, entry, ⟨id, entry.directory⟩⟩] := by
  have single := map_entry_actives index id entries
  rw [only, List.map_eq_singleton_iff] at single
  obtain ⟨a, same, rfl⟩ := single
  have output : a.output = ⟨id, a.entry.directory⟩ :=
    output_of_actives (k := 0) (by rw [same]; rfl)
  exact ⟨a.index, by rw [same, ← output]⟩

/-- What is kept of a new output. -/
def newRecord (a : ActiveEntry) : OutputRecord := ⟨a.output.directory, false, []⟩

/-- The run after the outputs of entries were opened. -/
def opened (r : Run) (active : List ActiveEntry) : Run :=
  { r with outputs := r.outputs ++ active.map newRecord }

theorem opened_outputs (r : Run) (active : List ActiveEntry) (k : Nat) :
    (opened r active).outputs[r.outputs.length + k]? = active[k]?.map newRecord := by
  rw [opened, List.getElem?_append_right (Nat.le_add_right _ _), Nat.add_sub_cancel_left,
    List.getElem?_map]

theorem opened_cons (r : Run) (a : ActiveEntry) (active : List ActiveEntry) :
    opened (opened r [a]) active = opened r (a :: active) := by
  simp [opened]

/-- Opening the outputs asks nothing of the host. -/
theorem execute_activate (host : Host (StateM σ)) (index : Nat) (entries : List (Entry Generator))
    (r : Run) (s : σ) :
    Run.execute host (activate index entries) r s =
      ((actives index r.outputs.length entries,
        opened r (actives index r.outputs.length entries)), s) := by
  induction entries generalizing index r with
  | nil =>
    simp only [actives, opened, List.map_nil, List.append_nil]
    rfl
  | cons entry entries ih =>
    cases activated : entry.activated with
    | false =>
      simp only [activate, actives, activated, Bool.false_eq_true, if_false]
      exact ih (index + 1) r
    | true =>
      simp only [activate, actives, activated, if_true]
      rw [← opened_cons]
      set a : ActiveEntry := ⟨index, entry, ⟨r.outputs.length, entry.directory⟩⟩
      have first : Run.execute host (Output.new entry.directory) r s =
        ((a.output, opened r [a]), s) := rfl
      have length : (opened r [a]).outputs.length = r.outputs.length + 1 := by simp [opened]
      have rest := ih (index + 1) (opened r [a])
      rw [length] at rest
      refine (Run.execute_bind _ _ first).trans ?_
      refine (Run.execute_bind _ _ rest).trans ?_
      rfl

/-- Every entry with every document, ordered by entry and then by document. -/
def pairs {β : Type} (entries : List β) (docs : List Document) : List (β × Document) :=
  entries.flatMap fun entry => docs.map (entry, ·)

theorem calls_eq (cancel : CancelContext) (active : List ActiveEntry) (docs : List Document) :
    calls cancel active docs = (pairs active docs).map fun pair => call cancel pair.1 pair.2 := by
  simp [calls, pairs, List.map_flatMap, Function.comp_def]

theorem fst_mem_of_mem_pairs {β : Type} {entries : List β} {docs : List Document}
    {pair : β × Document} (h : pair ∈ pairs entries docs) : pair.1 ∈ entries := by
  obtain ⟨a, member, h⟩ := List.mem_flatMap.mp h
  obtain ⟨doc, -, rfl⟩ := List.mem_map.mp h
  exact member

/-- Generating opens the outputs and then makes the calls. -/
theorem generate_eq (host : Host (StateM σ)) (schedule : List Nat) (settings : PipelineSettings)
    (cancel : CancelContext) (entries : List (Entry Generator)) (docs : List Document)
    (r : Run) (s : σ) :
    generate host schedule settings cancel entries docs r s =
      let active := actives 0 r.outputs.length entries
      if settings.jobs > 1 then
        let ended := Run.executeAll host schedule ((calls cancel active docs).map (·.run))
          (opened r active) s
        (((firstError (ended.1.1.map (contained .internalFault))).mapError .failed, ended.1.2),
          ended.2)
      else Run.execute host ((calls cancel active docs).forM id).run (opened r active) s := by
  change (let x := Run.execute host (activate 0 entries) r s
    (if settings.jobs > 1 then do
      let results ← Run.executeAll host schedule ((calls cancel x.1.1 docs).map (·.run))
      return (firstError (results.map (contained .internalFault))).mapError .failed
    else Run.execute host ((calls cancel x.1.1 docs).forM id).run :
      StateT Run (StateM σ) (Except (Abort CompileError) Unit)) x.1.2 x.2) = _
  rw [execute_activate]
  dsimp only
  split <;> rfl

/-! ## How a call ends -/

/-- How a call ends whose generator ends so. -/
def callOutcome (outcome : Except (Abort GeneratorError) Unit) : Except (Abort CompileError) Unit :=
  outcome.mapError fun
    | .failed e => .failed (.generator e)
    | .panicked p => .panicked p

theorem run_mapError_generator (work : Work GeneratorError Unit) :
    (work.mapError CompileError.generator).run =
      work.run.bind fun outcome => .done (callOutcome outcome) := by
  change work.run.bind (fun outcome => .done (Except.mapError _ outcome)) = _
  congr 1
  funext outcome
  rcases outcome with (_ | _) | _ <;> rfl

/-! ## How calls end together -/

theorem contained_map {ε α β : Type} (tell : InternalFault → ε) (f : α → β)
    (result : Except (Abort ε) α) :
    contained tell (result.map f) = (contained tell result).map f := by
  rcases result with (e | ⟨payload, _ | location⟩) | a <;> rfl

theorem contained_mapError_failed {ε α : Type} (tell : InternalFault → ε) (result : Except ε α) :
    contained tell (result.mapError .failed) = result := by
  cases result <;> rfl

theorem contained_eq_ok {ε α : Type} {tell : InternalFault → ε} {result : Except (Abort ε) α}
    {a : α} (h : contained tell result = .ok a) : result = .ok a := by
  rcases result with (e | ⟨payload, _ | location⟩) | b <;> cases h
  rfl

theorem failed_of_contained {α : Type} {result : Except (Abort CompileError) α} {e : GeneratorError}
    (h : contained .internalFault result = .error (.generator e)) :
    result = .error (.failed (.generator e)) := by
  rcases result with (cause | ⟨payload, _ | location⟩) | a <;> cases h
  rfl

theorem firstError_mem {results : List (Except CompileError Unit)} {e : CompileError}
    (h : firstError results = .error e) : .error e ∈ results := by
  induction results with
  | nil => cases h
  | cons result results ih =>
    rcases result with cause | ⟨⟩
    · cases h
      exact List.mem_cons_self ..
    · exact List.mem_cons_of_mem _ (ih h)

theorem firstError_eq_ok {results : List (Except CompileError Unit)}
    (h : firstError results = .ok ()) : ∀ result ∈ results, result = .ok () := by
  induction results with
  | nil => exact nofun
  | cons result results ih =>
    rcases result with e | ⟨⟩
    · cases h
    · exact List.forall_mem_cons.mpr ⟨rfl, ih h⟩

/-- Guarding every call reports what one guard around all of them does. -/
theorem firstError_map_contained (ended : List (Except (Abort CompileError) Unit)) :
    firstError (ended.map (contained .internalFault)) =
      contained .internalFault (ended.forM id) := by
  induction ended with
  | nil => rfl
  | cons result ended ih =>
    rcases result with (e | ⟨payload, _ | location⟩) | ⟨⟩
    · rfl
    · rfl
    · rfl
    · exact ih

/-- Generating carries calls out, under some schedule: all of them, or those in front of the first
failure and that one. -/
theorem generate_eq_executeAll {host : Host (StateM σ)} {schedule : List Nat}
    {settings : PipelineSettings} {cancel : CancelContext}
    {entries : List (Entry Generator)} {docs : List Document} {r r' : Run} {s s' : σ}
    {result : Except (Abort CompileError) Unit}
    (h : generate host schedule settings cancel entries docs r s = ((result, r'), s')) :
    ∃ order made ended, made <+: calls cancel (actives 0 r.outputs.length entries) docs ∧
      Run.executeAll host order (made.map (·.run))
        (opened r (actives 0 r.outputs.length entries)) s = ((ended, r'), s') ∧
      contained .internalFault result = firstError (ended.map (contained .internalFault)) ∧
      (result = .ok () → made = calls cancel (actives 0 r.outputs.length entries) docs) := by
  rw [generate_eq] at h
  dsimp only at h
  split at h
  · rcases hall : Run.executeAll host schedule
      ((calls cancel (actives 0 r.outputs.length entries) docs).map (·.run))
      (opened r (actives 0 r.outputs.length entries)) s with ⟨⟨ended, r₁⟩, s₁⟩
    rw [hall] at h
    cases h
    exact ⟨schedule, _, ended, List.prefix_refl _, hall, contained_mapError_failed _ _,
      fun _ => rfl⟩
  · obtain ⟨count, ended, ran, first, all⟩ := Run.execute_forM_eq_executeAll h
    refine ⟨[], _, ended, List.take_prefix count _, ran, ?_, all⟩
    rw [firstError_map_contained, first]

/-! ## Outputs of calls -/

/-- The directory of an activated entry, by its number among them. -/
def directoryAt (entries : List (Entry Generator)) (k : Nat) : Path :=
  (((entries.filter (·.activated))[k]?).map (·.directory)).getD default

theorem directoryAt_of_actives {entries : List (Entry Generator)} {index id k : Nat}
    {a : ActiveEntry} (h : (actives index id entries)[k]? = some a) :
    directoryAt entries k = a.entry.directory := by
  rw [directoryAt, entry_of_actives h]
  rfl

/-- The output of the call at `i`; behind the last call, that of the first entry. -/
def outputAt (id : Nat) (entries : List (Entry Generator)) (docs : List Document) (i : Nat) :
    Output :=
  ((pairs (actives 0 id entries) docs)[i]?.map (·.1.output)).getD ⟨id, directoryAt entries 0⟩

/-- The output of a call is that of an activated entry. -/
theorem outputAt_eq {id i : Nat} {entries : List (Entry Generator)} {docs : List Document}
    (inside : i < (pairs (actives 0 id entries) docs).length) :
    ∃ k a, (actives 0 id entries)[k]? = some a ∧ (pairs (actives 0 id entries) docs)[i].1 = a ∧
      outputAt id entries docs i = ⟨id + k, directoryAt entries k⟩ := by
  have member := fst_mem_of_mem_pairs (List.getElem_mem inside)
  obtain ⟨k, here⟩ := List.mem_iff_getElem?.mp member
  refine ⟨k, _, here, rfl, ?_⟩
  rw [outputAt, List.getElem?_eq_getElem inside, directoryAt_of_actives here]
  exact output_of_actives here

theorem outputAt_directory (id : Nat) (entries : List (Entry Generator)) (docs : List Document)
    (i : Nat) :
    (outputAt id entries docs i).directory =
      directoryAt entries ((outputAt id entries docs i).id - id) := by
  by_cases inside : i < (pairs (actives 0 id entries) docs).length
  · obtain ⟨k, -, -, -, h⟩ := outputAt_eq inside
    rw [h, Nat.add_sub_cancel_left]
  · rw [outputAt, List.getElem?_eq_none (Nat.le_of_not_lt inside)]
    simp

end SchemaCompiler.Pipeline
