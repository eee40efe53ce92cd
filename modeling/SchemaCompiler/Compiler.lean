import SchemaCompiler.Pipeline

/-!
The compiler: from a command line to a finished run.
-/

namespace SchemaCompiler

structure Compiler where
  registry : Registry Generator
  /-- The generator for a plugin, given what its executable's name begins with and its name. -/
  plugin : String → String → Generator
  /-- Whether to log; if not said here, the command line decides. -/
  logging : Option Bool

namespace Compiler

variable {m : Type → Type} [Monad m]

/-- What a command line asks for: how to run, what to generate, and the inputs. -/
def configure (c : Compiler) (args : List String) :
    Except CompileError (CommandLine × List (Entry Generator)) := do
  let bindings := c.registry.bindingsFor c.plugin args
  let line ← (CommandLine.parse (bindings.flatMap (·.switches)) (args.drop 1)).mapError .usage
  let entries ← (Binding.entries bindings line.value?).mapError .registry
  return (line, entries)

/-- Runs what `args` asks for; the first argument is the name of the program. -/
def runUnguarded (host : Host m) (schedule : List Nat) (c : Compiler) (args : List String)
    (cancel : CancelContext) : StateT Run m (Except (Abort CompileError) (List Document)) := do
  match c.configure args with
  | .error e => return .error (.failed e)
  | .ok (line, entries) =>
    modify fun r => { r with logging := c.logging.getD line.verbose }
    let settings : PipelineSettings := ⟨line.importPaths, max line.jobs 1⟩
    let active := (entries.filter (·.activated)).map (·.name)
    Run.execute host (Program.perform (.log (.compiling line.files.length active settings.jobs)))
    Pipeline.run host schedule settings cancel entries line.files

/-- As `runUnguarded`, with a panic turned into an error. -/
def run (host : Host m) (schedule : List Nat) (c : Compiler) (args : List String)
    (cancel : CancelContext) : StateT Run m (Except CompileError (List Document)) := do
  return contained .internalFault (← c.runUnguarded host schedule args cancel)

end Compiler

end SchemaCompiler
