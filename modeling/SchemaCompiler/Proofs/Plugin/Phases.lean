import SchemaCompiler.Generator.Plugin
import SchemaCompiler.Proofs.Program.Asking

/-!
The phases of a plugin: what it does until its process has ended, and what it makes of the end.
-/

namespace SchemaCompiler.Plugin

/-- Runs an executable unless the limit is done. -/
def runUntil (a : Assignment) (executable : Path) (input : Bytes) (limit : CancelContext) :
    Work GenerateError (Path × Ending) := do
  if ← Work.perform (.isDone limit) then
    Work.fail .cancelled
  Work.perform (.log (.startingPlugin executable a.document.name))
  let ending ← Work.perform (.run executable input limit)
  return (executable, ending)

/-- All up to the end of the process, with the executable that ran. -/
def await (p : Plugin) (a : Assignment) : Work GenerateError (Path × Ending) := do
  let executable ← Work.ofExceptT p.resolve
  let input ←
    match (request a).encode with
    | .ok input => pure input
    | .error e => Work.fail (.pluginProtocol ("failed to encode request: " ++ e.message))
  let limit ←
    match p.timeout with
    | some timeout => Work.perform (.withTimeout a.cancel timeout)
    | none => pure a.cancel
  runUntil a executable input limit

theorem asks_await (p : Plugin) (a : Assignment) : Program.Asks (p.await a).run := by
  have resolved : Program.Asks p.resolve.run := only_adapt (.ask rfl fun _ => .done _)
  have limited (executable : Path) (input : Bytes) (limit : CancelContext) :
      Program.Asks (runUntil a executable input limit).run := by
    refine only_bind (only_perform rfl) fun done => ?_
    cases done with
    | true => exact .done _
    | false =>
      exact only_bind (only_perform rfl) fun _ => only_bind (only_perform rfl) fun _ => .done _
  refine only_bind (only_adapt resolved) fun executable => ?_
  cases (request a).encode with
  | error e => exact .done _
  | ok input =>
    simp only [pure_bind]
    cases p.timeout with
    | none => exact limited _ _ _
    | some timeout => exact only_bind (only_perform rfl) (limited _ _)

/-- What becomes of a process that ended. -/
def conclude (a : Assignment) (executable : Path) : Ending → Work GenerateError Unit
  | .notStarted e => Work.fail (startError executable e)
  | .stopped => Work.fail .cancelled
  | .broken reason => Work.fail (.pluginProtocol reason)
  | .exited status output messages => do
    let words := Text.trim (Text.decodeLossy messages)
    unless status = some 0 do
      Work.fail (.pluginProtocol (exitMessage status words))
    unless words.isEmpty do
      Work.perform (.log (.pluginMessages executable words))
    let count ← useOutput a.output output
    Work.perform (.log (.pluginFinished executable count))

/-- A plugin waits for its process and then makes something of how that ended. -/
theorem generate_eq (p : Plugin) (a : Assignment) :
    p.generate a = p.await a >>= fun ended => conclude a ended.1 ended.2 := by
  unfold generate await
  rw [bind_assoc]
  refine congrArg _ (funext fun executable => ?_)
  cases (request a).encode with
  | error e => rfl
  | ok input =>
    simp only [pure_bind]
    cases p.timeout
    -- without a timeout the limit is the given one and nothing is asked for
    case' some timeout =>
      simp only [bind_assoc]
      refine congrArg _ (funext fun limit => ?_)
    all_goals
      simp only [runUntil, bind_assoc]
      refine congrArg _ (funext fun done => ?_)
      cases done with
      | true => rfl
      | false =>
        simp only [Bool.false_eq_true, ↓reduceIte]
        refine congrArg _ (funext fun _ => ?_)
        refine congrArg _ (funext fun ending => ?_)
        cases ending <;> rfl

end SchemaCompiler.Plugin
