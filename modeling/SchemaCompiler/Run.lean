import SchemaCompiler.Program

/-!
Runs: what the actions of programs do.

A run keeps track of outputs, of cancelled contexts and of executables looked for; the rest it asks
of a host.
-/

namespace SchemaCompiler

/-- The surroundings of a run. -/
structure Host (m : Type → Type) where
  files : FileSystem m
  now : m Instant
  log : Event → m Unit
  /-- Finds an executable on the search path. -/
  locate : String → m (Except String Path)
  /-- Runs an executable on an input. It is killed when it has not ended by the deadline. -/
  run : Path → Bytes → Deadline → m Ending

/-- What became of an output so far. -/
structure OutputRecord where
  directory : Path
  /-- Whether the directory was made. -/
  prepared : Bool
  /-- The names of its files. -/
  claimed : List String
deriving DecidableEq, Repr

/-- A call of the generator of an entry. -/
structure Call where
  entry : Nat
  document : String
deriving DecidableEq, Repr

structure Run where
  outputs : List OutputRecord
  cancellations : Cancellations
  /-- The executables looked for, with what was found. -/
  located : List (String × Except String Path)
  /-- The calls made, the last one first. -/
  calls : List Call
  /-- Whether events go to the log. -/
  logging : Bool
deriving Repr

namespace Run

def start (cancellations : Cancellations) : Run :=
  { outputs := [], cancellations, located := [], calls := [], logging := false }

def setOutput (r : Run) (id : Nat) (record : OutputRecord) : Run :=
  { r with outputs := r.outputs.set id record }

variable {m : Type → Type} [Monad m]

/-- Makes the directory of an output. It counts as made once that has succeeded. -/
def prepare (host : Host m) (id : Nat) : StateT Run m (Except IoError Unit) := do
  match (← get).outputs[id]? with
  | none => return .ok ()
  | some record =>
    if record.prepared then return .ok ()
    let result ← host.files.makeDirectories record.directory
    if result.toBool then
      modify (·.setOutput id { record with prepared := true })
    return result

def claim (id : Nat) (name : String) : StateT Run m Bool := do
  match (← get).outputs[id]? with
  | none => return false
  | some record =>
    if record.claimed.contains name then return false
    modify (·.setOutput id { record with claimed := name :: record.claimed })
    return true

/-- What was found the first time that the executable was looked for. -/
def locate (host : Host m) (executable : String) : StateT Run m (Except String Path) := do
  match (← get).located.lookup executable with
  | some result => return result
  | none =>
    let result ← host.locate executable
    modify fun r => { r with located := (executable, result) :: r.located }
    return result

/-- A context that is cancelled while the process runs does not cut it short: nothing runs beside
it that could cancel the context. -/
def perform (host : Host m) : (action : Action) → StateT Run m action.Answer
  | .read path => host.files.read path
  | .isFile path => host.files.isFile path
  | .makeDirectories path => host.files.makeDirectories path
  | .create path => host.files.create path
  | .write handle data => host.files.write handle data
  | .flush handle => host.files.flush handle
  | .drop handle => host.files.drop handle
  | .newOutput directory =>
    let record : OutputRecord := ⟨directory, false, []⟩
    modifyGet fun r => (r.outputs.length, { r with outputs := r.outputs ++ [record] })
  | .prepare id => prepare host id
  | .claim id name => claim id name
  | .isDone context => do return context.isDone (← get).cancellations (← host.now)
  | .cancel context =>
    modify fun r => { r with cancellations := r.cancellations.cancel context }
  | .withTimeout context timeout => do return context.withTimeout (← host.now) timeout
  | .log event => do if (← get).logging then host.log event
  | .call entry document => modify fun r => { r with calls := ⟨entry, document⟩ :: r.calls }
  | .locate executable => locate host executable
  | .run executable input limit => do
    if limit.isCancelled (← get).cancellations then return .stopped
    host.run executable input limit.deadline

/-- Carries a program out. -/
def execute {α : Type} (host : Host m) (program : Program α) : StateT Run m α :=
  program.run (perform host)

/-- Carries several programs out at once. -/
def executeAll {α : Type} (host : Host m) (schedule : List Nat) (programs : List (Program α)) :
    StateT Run m (List α) :=
  Program.runAll (perform host) schedule programs

end Run

end SchemaCompiler
