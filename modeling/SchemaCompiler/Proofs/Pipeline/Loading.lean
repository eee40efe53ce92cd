import SchemaCompiler.Compiler
import SchemaCompiler.Proofs.Program.Together

/-!
Loading looks at files and does nothing else. So it comes to the same documents whenever the files
are the same, and what a run does after it begins with files and outputs as they were.
-/

namespace SchemaCompiler

open Program (Looks)

variable {σ : Type} {host : Host (StateM σ)}

namespace Pipeline

theorem firstFile?_looks (paths : List Path) : Looks (firstFile? paths) := by
  induction paths with
  | nil => exact .done _
  | cons path paths ih =>
    refine .ask rfl fun found => ?_
    cases found with
    | true => exact .done _
    | false => exact ih

theorem resolve_looks (importPaths : List Path) (input : String) :
    Looks (resolve importPaths input) := by
  rw [resolve]
  split
  · exact .done _
  · exact (firstFile?_looks _).bind fun _ => .done _

theorem parseInput_looks (importPaths : List Path) (names : DocumentNames) (input : String) :
    Looks (parseInput importPaths names input).run := by
  refine only_bind (only_lift (resolve_looks importPaths input)) fun path => ?_
  refine only_bind (only_lift (.ask rfl .done)) fun _ => ?_
  refine only_bind (only_lift (.ask rfl .done)) fun content => ?_
  cases content with
  | error e => exact .done _
  | ok bytes =>
    simp only
    cases Text.decode? bytes with
    | none => exact .done _
    | some source =>
      simp only
      split <;> exact .done _

theorem parseInputs_looks (importPaths : List Path) (names : DocumentNames)
    (inputs : List String) : Looks (parseInputs importPaths names inputs).run := by
  induction inputs generalizing names with
  | nil => exact .done _
  | cons input inputs ih =>
    exact only_bind (parseInput_looks importPaths names input) fun parsed =>
      only_bind (ih parsed.2) fun _ => .done _

/-- Loading the inputs only looks at files. -/
theorem load_looks (settings : PipelineSettings) (inputs : List String) :
    Looks (load settings inputs).run := by
  rw [load]
  cases inputsError? inputs with
  | some e => exact .done _
  | none =>
    refine only_bind (parseInputs_looks _ _ inputs) fun docs => ?_
    dsimp only
    split
    · exact .done _
    · exact only_bind (only_lift (.ask rfl .done)) fun _ => .done _

/-! ## What follows loading -/

/-- The rest of a run, given what loading came to. -/
def finish (host : Host (StateM σ)) (schedule : List Nat) (settings : PipelineSettings)
    (cancel : CancelContext) (entries : List (Entry Generator)) :
    Except CompileError (List Document) →
      StateT Run (StateM σ) (Except (Abort CompileError) (List Document))
  | .error e => return .error (.failed e)
  | .ok docs => do
    let result ← generate host schedule settings cancel entries docs
    return result.map fun () => docs

theorem finish_of_generate {schedule : List Nat} {settings : PipelineSettings}
    {cancel : CancelContext} {entries : List (Entry Generator)} {docs : List Document}
    {r r' : Run} {s s' : σ} {result : Except (Abort CompileError) Unit}
    (h : generate host schedule settings cancel entries docs r s = ((result, r'), s')) :
    finish host schedule settings cancel entries (.ok docs) r s =
      ((result.map fun () => docs, r'), s') := by
  change (let x := generate host schedule settings cancel entries docs r s
    ((x.1.1.map fun () => docs, x.1.2), x.2)) = _
  rw [h]

theorem run_of_load (host : Host (StateM σ)) (schedule : List Nat) (settings : PipelineSettings)
    (cancel : CancelContext) (entries : List (Entry Generator)) (inputs : List String)
    {r r' : Run} {s s' : σ} {loaded : Except CompileError (List Document)}
    (h : Run.execute host (load settings inputs).run r s = ((loaded, r'), s')) :
    run host schedule settings cancel entries inputs r s =
      finish host schedule settings cancel entries loaded r' s' := by
  change (let x := Run.execute host (load settings inputs).run r s
    (match x.1.1 with
    | .error e => return .error (.failed e)
    | .ok docs => do
      let result ← generate host schedule settings cancel entries docs
      return result.map fun () => docs :
      StateT Run (StateM σ) (Except (Abort CompileError) (List Document))) x.1.2 x.2) = _
  rw [h]
  cases loaded <;> rfl

end Pipeline

open Pipeline

/-- A command line that is refused ends a run at once. -/
theorem Compiler.run_of_refused {c : Compiler} {args : List String} {e : CompileError}
    (refused : c.configure args = .error e) (schedule : List Nat) (cancel : CancelContext) (r : Run)
    (s : σ) : c.run host schedule args cancel r s = ((.error e, r), s) := by
  change (let x := c.runUnguarded host schedule args cancel r s
    ((contained .internalFault x.1.1, x.1.2), x.2)) = _
  have unguarded : c.runUnguarded host schedule args cancel r s = ((.error (.failed e), r), s) := by
    rw [runUnguarded, refused]
    rfl
  rw [unguarded]
  rfl

/-- A run whose command line is understood logs that and goes through the pipeline. -/
theorem Compiler.run_of_configured {c : Compiler} {args : List String} {line : CommandLine}
    {entries : List (Entry Generator)} (configured : c.configure args = .ok (line, entries))
    (schedule : List Nat) (cancel : CancelContext) (r : Run) (s : σ) :
    c.run host schedule args cancel r s =
      (let settings : PipelineSettings := ⟨line.importPaths, max line.jobs 1⟩
      let begun := Run.execute host (Program.perform (.log (.compiling line.files.length
        ((entries.filter (·.activated)).map (·.name)) settings.jobs)))
        { r with logging := c.logging.getD line.verbose } s
      let ended := Pipeline.run host schedule settings cancel entries line.files begun.1.2 begun.2
      ((contained .internalFault ended.1.1, ended.1.2), ended.2)) := by
  change (let x := c.runUnguarded host schedule args cancel r s
    ((contained .internalFault x.1.1, x.1.2), x.2)) = _
  rw [runUnguarded, configured]
  rfl

/-- A run logs, loads its inputs, which changes nothing, and generates from them. -/
theorem Compiler.run_eq {view : Host.View host} {c : Compiler} {args : List String} {line : CommandLine}
    {entries : List (Entry Generator)} (configured : c.configure args = .ok (line, entries))
    (schedule : List Nat) (cancel : CancelContext) {r : Run} {s : σ}
    (calm : view.Calm r.cancellations r) (valid : view.Valid s)
    {loaded : Except CompileError (List Document)}
    (loads : (Run.execute host (load ⟨line.importPaths, 1⟩ line.files).run r s).1.1 = loaded) :
    ∃ r' s' calls, c.run host.recorded schedule args cancel r (s, []) =
        (let ended := finish host.recorded schedule ⟨line.importPaths, max line.jobs 1⟩ cancel
          entries loaded r' (s', calls)
        ((contained .internalFault ended.1.1, ended.1.2), ended.2)) ∧
      r'.outputs = r.outputs ∧ view.files s' = view.files s ∧
      Unbegun view r.cancellations r' s' calls := by
  let settings : PipelineSettings := ⟨line.importPaths, max line.jobs 1⟩
  let r₀ : Run := { r with logging := c.logging.getD line.verbose }
  have begun : Unbegun view r.cancellations r₀ s [] :=
    ⟨⟨rfl, calm.located⟩, valid, nofun⟩
  have announces : Program.Asks (Program.perform (.log (.compiling line.files.length
      ((entries.filter (·.activated)).map (·.name)) settings.jobs))) := .ask rfl .done
  obtain ⟨r₁, s₁, calls₁, announced, outputs₁, files₁, begun₁⟩ := begun.asks announces
  have looks := load_looks settings line.files
  obtain ⟨r₂, s₂, calls₂, ran, outputs₂, files₂, begun₂⟩ := begun₁.asks looks.asks
  have answered : (Run.execute host (load settings line.files).run r₁ s₁).1.1 = loaded := by
    rw [← loads]
    exact view.execute_looks looks begun₁.valid valid (by rw [files₁]) rfl rfl
  rw [answered] at ran
  refine ⟨r₂, s₂, calls₂, ?_, outputs₂.trans outputs₁, files₂.trans files₁, begun₂⟩
  have rest := Pipeline.run_of_load host.recorded schedule settings cancel entries line.files ran
  rw [run_of_configured configured]
  dsimp only
  rw [announced, rest]

end SchemaCompiler
