import SchemaCompiler.Proofs.FileSystem.Recording
import SchemaCompiler.Proofs.Pipeline.Calls
import SchemaCompiler.Proofs.Pipeline.Loading

/-!
Notes of a run. A run on a host that takes notes of file calls ends as it does without them.
-/

namespace SchemaCompiler

variable {σ : Type}

namespace Pipeline

theorem generate_recorded (host : Host (StateM σ)) (schedule : List Nat)
    (settings : PipelineSettings) (cancel : CancelContext) (entries : List (Entry Generator))
    (docs : List Document) (r : Run) (s : σ) (calls : List FileCall) :
    ∃ more, generate host.recorded schedule settings cancel entries docs r (s, calls) =
      ((generate host schedule settings cancel entries docs r s).1,
        ((generate host schedule settings cancel entries docs r s).2, calls ++ more)) := by
  simp only [generate_eq]
  split
  · obtain ⟨more, recorded⟩ := Run.executeAll_recorded host schedule
      ((Pipeline.calls cancel (actives 0 r.outputs.length entries) docs).map (·.run))
      (opened r (actives 0 r.outputs.length entries)) s calls
    rw [recorded]
    exact ⟨more, rfl⟩
  · exact Run.execute_recorded host _ _ s calls

theorem run_recorded (host : Host (StateM σ)) (schedule : List Nat) (settings : PipelineSettings)
    (cancel : CancelContext) (entries : List (Entry Generator)) (inputs : List String) (r : Run)
    (s : σ) (calls : List FileCall) :
    ∃ more, run host.recorded schedule settings cancel entries inputs r (s, calls) =
      ((run host schedule settings cancel entries inputs r s).1,
        ((run host schedule settings cancel entries inputs r s).2, calls ++ more)) := by
  obtain ⟨more, noted⟩ := Run.execute_recorded host (load settings inputs).run r s calls
  rcases loads : Run.execute host (load settings inputs).run r s with ⟨⟨loaded, r₁⟩, s₁⟩
  rw [loads] at noted
  rw [run_of_load _ _ _ _ _ _ noted, run_of_load _ _ _ _ _ _ loads]
  cases loaded with
  | error e => exact ⟨more, rfl⟩
  | ok docs =>
    obtain ⟨others, recorded⟩ :=
      generate_recorded host schedule settings cancel entries docs r₁ s₁ (calls ++ more)
    rcases generated : generate host schedule settings cancel entries docs r₁ s₁ with
      ⟨⟨result, r₂⟩, s₂⟩
    rw [generated, List.append_assoc] at recorded
    rw [finish_of_generate recorded, finish_of_generate generated]
    exact ⟨more ++ others, rfl⟩

end Pipeline

/-- Taking notes of the calls of the file system changes nothing else about a run. -/
theorem Compiler.run_recorded (host : Host (StateM σ)) (schedule : List Nat) (c : Compiler)
    (args : List String) (cancel : CancelContext) (r : Run) (s : σ) (calls : List FileCall) :
    ∃ more, c.run host.recorded schedule args cancel r (s, calls) =
      ((c.run host schedule args cancel r s).1,
        ((c.run host schedule args cancel r s).2, calls ++ more)) := by
  cases configured : c.configure args with
  | error e =>
    rw [run_of_refused configured, run_of_refused configured]
    exact ⟨[], by rw [List.append_nil]⟩
  | ok understood =>
    obtain ⟨line, entries⟩ := understood
    simp only [run_of_configured configured]
    obtain ⟨more, announced⟩ := Run.execute_recorded host (Program.perform (.log (.compiling
      line.files.length ((entries.filter (·.activated)).map (·.name)) (max line.jobs 1))))
      { r with logging := c.logging.getD line.verbose } s calls
    rw [announced]
    obtain ⟨others, rest⟩ := Pipeline.run_recorded host schedule ⟨line.importPaths, max line.jobs 1⟩
      cancel entries line.files _ _ (calls ++ more)
    rw [rest, List.append_assoc]
    exact ⟨more ++ others, rfl⟩

end SchemaCompiler
