import Mathlib.Data.List.Nodup
import SchemaCompiler.Proofs.Output.Creating
import SchemaCompiler.Proofs.Pipeline.Calls
import SchemaCompiler.Sandbox

/-!
What a run creates, over all its entries and documents.

Each activated entry refuses a name that it has taken before. Between entries nothing is refused:
a file is created a second time exactly when two entries put names at the same place.
-/

namespace SchemaCompiler.Pipeline

open Program (Through)
open Work (through_adapt through_bind through_perform)

variable {σ : Type}

theorem call_through (cancel : CancelContext) (a : ActiveEntry) (doc : Document)
    (writes : a.entry.generator.WritesThrough) : Through a.output (call cancel a doc).run := by
  refine through_bind (through_perform rfl) fun done => ?_
  cases done with
  | true => exact .done _
  | false =>
    exact through_bind (through_perform rfl) fun _ =>
      through_bind (through_perform rfl) fun _ => through_adapt (writes ⟨a.output, cancel, doc, a.entry.options⟩)

/-- Where an activated entry puts the file of a name. -/
def placeAt (entries : List (Entry Generator)) (origin : Nat × String) : Path :=
  placeIn (directoryAt entries origin.1) origin.2

/-- When the outputs are opened, the calls are all at their beginning and nothing is created. -/
theorem orderly_calls (cancel : CancelContext) {entries : List (Entry Generator)}
    (docs : List Document) (r : Run)
    (writes : ∀ entry ∈ entries, entry.activated → entry.generator.WritesThrough) :
    Orderly (outputAt r.outputs.length entries docs)
      (fun id => directoryAt entries (id - r.outputs.length))
      ((calls cancel (actives 0 r.outputs.length entries) docs).map (·.run))
      (opened r (actives 0 r.outputs.length entries)) [] := by
  refine ⟨fun _ => .idle, [], ⟨?_, ?_, by simp⟩, ⟨by simp, rfl, by simp, .nil, by simp, ?_, ?_⟩⟩
  · intro i p here
    rw [calls_eq, List.map_map, List.getElem?_map, Option.map_eq_some_iff] at here
    obtain ⟨pair, hpair, rfl⟩ := here
    obtain ⟨inside, rfl⟩ := List.getElem?_eq_some_iff.mp hpair
    obtain ⟨k, a, here, same, output⟩ := outputAt_eq inside
    have entry := List.mem_filter.mp (List.mem_of_getElem? (entry_of_actives here))
    rw [output, directoryAt_of_actives here, ← output_of_actives here, Function.comp_apply, same]
    exact (call_through cancel a _ (writes _ entry.1 entry.2)).along
  · intro i inside
    rw [List.length_map, calls_eq, List.length_map] at inside
    obtain ⟨k, a, here, -, output⟩ := outputAt_eq inside
    refine ⟨newRecord a, ?_, ?_⟩
    · rw [output, opened_outputs, here]
      rfl
    · rw [output, directoryAt_of_actives here, newRecord, output_of_actives here]
  · intro i name holding
    cases holding
  · intro i j name holding
    cases holding

/-- Whatever becomes of the calls, under every schedule, what they created is accounted for. -/
theorem orderly_generate {host : Host (StateM σ)} {schedule : List Nat}
    {settings : PipelineSettings} {cancel : CancelContext} {entries : List (Entry Generator)}
    {docs : List Document} {r r' : Run} {s s' : σ} {calls : List FileCall}
    {result : Except (Abort CompileError) Unit}
    (writes : ∀ entry ∈ entries, entry.activated → entry.generator.WritesThrough)
    (h : generate host.recorded schedule settings cancel entries docs r (s, []) =
      ((result, r'), (s', calls))) :
    ∃ programs : List (Program (Except (Abort CompileError) Unit)),
      programs.length = (pairs (actives 0 r.outputs.length entries) docs).length ∧
      Orderly (outputAt r.outputs.length entries docs)
        (fun id => directoryAt entries (id - r.outputs.length)) programs r' calls := by
  let Holds (programs : List (Program (Except (Abort CompileError) Unit))) (r' : Run)
      (calls : List FileCall) : Prop :=
    programs.length = (pairs (actives 0 r.outputs.length entries) docs).length ∧
      Orderly (outputAt r.outputs.length entries docs)
        (fun id => directoryAt entries (id - r.outputs.length)) programs r' calls
  have keeps : Run.Keeps host.recorded fun programs r s => Holds programs r s.2 := by
    refine Run.keeps_of_notes host Holds fun holds here notes => ⟨?_, ?_⟩
    · rw [List.length_set, holds.1]
    · exact holds.2.step (outputAt_directory _ _ _) here notes
  have start : Holds ((Pipeline.calls cancel (actives 0 r.outputs.length entries) docs).map
      (·.run)) (opened r (actives 0 r.outputs.length entries)) [] := by
    refine ⟨?_, orderly_calls cancel docs r writes⟩
    rw [List.length_map, calls_eq, List.length_map]
  rw [generate_eq] at h
  dsimp only at h
  split at h
  · rcases hall : Run.executeAll host.recorded schedule
      ((Pipeline.calls cancel (actives 0 r.outputs.length entries) docs).map (·.run))
      (opened r (actives 0 r.outputs.length entries)) (s, []) with ⟨⟨results, r₁⟩, s₁⟩
    rw [hall] at h
    cases h
    exact ⟨_, keeps.executeAll start hall⟩
  · obtain ⟨programs, -, holds⟩ := keeps.forM [] (s := (s, [])) start h
    exact ⟨programs, holds⟩

/-- What a run creates comes from activated entries and accepted names, from each entry and name
once: what an entry has created it can no longer open. So a run never creates a file twice exactly
when the places that it takes for different entries are different. -/
theorem created_once_iff_places_apart (host : Host (StateM σ)) (schedule : List Nat)
    (settings : PipelineSettings) (cancel : CancelContext) (entries : List (Entry Generator))
    (docs : List Document)
    (writes : ∀ entry ∈ entries, entry.activated → entry.generator.WritesThrough)
    {r r' : Run} {s s' : σ} {calls : List FileCall} {result : Except (Abort CompileError) Unit}
    (h : generate host.recorded schedule settings cancel entries docs r (s, []) =
      ((result, r'), (s', calls))) :
    ∃ origins : List (Nat × String),
      FileCall.created calls = origins.map (placeAt entries) ∧ origins.Nodup ∧
      (∀ origin ∈ origins, origin.1 < (entries.filter (·.activated)).length ∧
        FileName.fault? origin.2 = none) ∧
      (∀ origin ∈ origins, ∃ e r₂ s₂ more,
        Run.execute host.recorded
            (Output.openFile ⟨r.outputs.length + origin.1, directoryAt entries origin.1⟩
              origin.2).run r' (s', calls) =
          ((.error e, r₂), (s₂, calls ++ more)) ∧ FileCall.created more = []) ∧
      ((FileCall.created calls).Pairwise (fun p q => ¬ p.same q) ↔
        origins.Pairwise fun a b =>
          a.1 ≠ b.1 → ¬ (placeAt entries a).same (placeAt entries b)) := by
  obtain ⟨programs, length, stages, origins, -, accounted⟩ := orderly_generate writes h
  -- origins are kept by the numbers of outputs; the numbers of entries start at zero
  have own : ∀ origin ∈ origins, ∃ k < (entries.filter (·.activated)).length,
      origin.1 = r.outputs.length + k := by
    intro origin member
    obtain ⟨i, inside, same⟩ := accounted.own origin member
    obtain ⟨k, a, here, -, output⟩ := outputAt_eq (length ▸ inside)
    exact ⟨k, (List.getElem?_eq_some_iff.mp (entry_of_actives here)).1, by rw [same, output]⟩
  let numbered (origin : Nat × String) : Nat × String := (origin.1 - r.outputs.length, origin.2)
  have created : FileCall.created calls = (origins.map numbered).map (placeAt entries) := by
    rw [accounted.created, List.map_map]
    rfl
  have accepted : ∀ origin ∈ origins.map numbered,
      origin.1 < (entries.filter (·.activated)).length ∧ FileName.fault? origin.2 = none := by
    intro origin member
    obtain ⟨before, kept, rfl⟩ := List.mem_map.mp member
    obtain ⟨k, inside, hk⟩ := own before kept
    exact ⟨by simpa [numbered, hk] using inside, accounted.accepted before kept⟩
  have distinct : (origins.map numbered).Nodup := by
    refine accounted.distinct.map_on fun a ha b hb same => ?_
    obtain ⟨k, -, hk⟩ := own a ha
    obtain ⟨l, -, hl⟩ := own b hb
    simp only [numbered, Prod.mk.injEq] at same
    exact Prod.ext (by omega) same.2
  refine ⟨origins.map numbered, created, distinct, accepted, ?_, ?_⟩
  · intro origin member
    obtain ⟨before, kept, rfl⟩ := List.mem_map.mp member
    obtain ⟨k, -, hk⟩ := own before kept
    refine execute_openFile_claimed host ?_ s' calls
    simpa [numbered, hk] using accounted.claimed before kept
  · rw [created, List.pairwise_map]
    constructor
    · intro apart
      refine apart.imp ?_
      intro a b h _
      exact h
    · intro apart
      refine (distinct.and apart).imp_of_mem fun {a b} ha hb h same => ?_
      by_cases entry : a.1 = b.1
      · have names : a.2 = b.2 := by
          refine Output.place_injective ⟨0, directoryAt entries a.1⟩ (accepted a ha).2
            (accepted b hb).2 ?_
          simpa [placeAt, placeIn, entry] using same
        exact h.1 (Prod.ext entry names)
      · exact h.2 entry same

/-- Two entries that write a text file for each document, below one directory. -/
def entriesOfOneDirectory : List (Entry Generator) :=
  ["one", "two"].map fun name => ⟨Behaviour.write.generator name, name, ⟨"out"⟩, [], true⟩

/-- The second entry writes over what the first one has written, and the run ends well. -/
theorem written_over_below_one_directory :
    let ended := generate (Sandbox.host Sandbox.memoryFiles).recorded [] ⟨[], 1⟩ ⟨0, none⟩
      entriesOfOneDirectory [⟨"a", "a.gql", []⟩] (.start .empty) (.empty, [])
    ended.1.1 = .ok () ∧ ended.2.1.memory.files = [(⟨"out/a.txt"⟩, Text.encode "two")] ∧
      FileCall.created ended.2.2 = [⟨"out/a.txt"⟩, ⟨"out/a.txt"⟩] ∧
      ∃ origins : List (Nat × String),
        FileCall.created ended.2.2 = origins.map (placeAt entriesOfOneDirectory) ∧
        origins.Nodup ∧ ¬ origins.Pairwise fun a b => a.1 ≠ b.1 →
          ¬ (placeAt entriesOfOneDirectory a).same (placeAt entriesOfOneDirectory b) := by
  intro ended
  have created : FileCall.created ended.2.2 = [⟨"out/a.txt"⟩, ⟨"out/a.txt"⟩] := by decide
  refine ⟨rfl, by decide, created, ?_⟩
  have writes : ∀ entry ∈ entriesOfOneDirectory, entry.activated →
      entry.generator.WritesThrough := by
    intro entry member _
    obtain ⟨name, -, rfl⟩ := List.mem_map.mp member
    exact Behaviour.generator_writesThrough _ name
  have run : generate (Sandbox.host Sandbox.memoryFiles).recorded [] ⟨[], 1⟩ ⟨0, none⟩
      entriesOfOneDirectory [⟨"a", "a.gql", []⟩] (.start .empty) (.empty, []) =
    ((ended.1.1, ended.1.2), (ended.2.1, ended.2.2)) := rfl
  obtain ⟨origins, places, distinct, -, -, once⟩ :=
    created_once_iff_places_apart _ _ _ _ _ _ writes run
  refine ⟨origins, places, distinct, fun apart => ?_⟩
  have twice := once.mpr apart
  rw [created] at twice
  simp [Path.same] at twice

end SchemaCompiler.Pipeline
