import SchemaCompiler.Console
import SchemaCompiler.FileSystem.Disk
import SchemaCompiler.Shell.Process

/-!
The command `sdlc`: the compiler on the files and the clock of the machine it runs on. Plugin
scripts are run by the shell of this library.
-/

namespace SchemaCompiler.Machine

/-- The files that are open for writing. -/
structure OpenFiles where
  handles : List (Handle × IO.FS.Handle)
  next : Handle

abbrev MachineM := StateT OpenFiles IO

def osCode? : IO.Error → Option UInt32
  | .noFileOrDirectory _ _ _ => some 2
  | .alreadyExists _ code _ | .permissionDenied _ code _
  | .inappropriateType _ code _ | .invalidArgument _ code _ | .resourceExhausted _ code _
  | .noSuchThing _ code _ | .illegalOperation code _ | .otherError code _ => some code
  | _ => none

/-- The error as the rest of the library knows it. -/
def ioError (e : IO.Error) : IoError :=
  match (osCode? e).bind fun code => SystemError.all.find? (·.code == code.toNat) with
  | some known => known.ioError
  | none => ⟨.other, toString e⟩

def attempt {α : Type} (action : IO α) : MachineM (Except IoError α) := do
  try
    return .ok (← action)
  catch e =>
    return .error (ioError e)

def read (path : Path) : MachineM (Except IoError Bytes) :=
  attempt do return (← IO.FS.readBinFile path.text).data.toList

def create (path : Path) : MachineM (Except IoError Handle) := do
  match ← attempt (IO.FS.Handle.mk path.text .write) with
  | .error e => return .error e
  | .ok file =>
    modifyGet fun s =>
      (.ok s.next, { handles := (s.next, file) :: s.handles, next := s.next + 1 })

/-- Does something with an open file. -/
def withFile (handle : Handle) (action : IO.FS.Handle → IO Unit) :
    MachineM (Except IoError Unit) := do
  match (← get).handles.lookup handle with
  | some file => attempt (action file)
  | none => return .ok ()

def files : FileSystem MachineM where
  read := read
  isFile path := return (← read path).toBool
  makeDirectories path :=
    if path.text.isEmpty then return .ok () else attempt (IO.FS.createDirAll path.text)
  create := create
  write handle data := withFile handle (·.write ⟨data.toArray⟩)
  flush handle := withFile handle (·.flush)
  drop handle := modify fun s => { s with handles := s.handles.filter (·.1 != handle) }

/-- Looks for an executable in the directories of the search path. -/
def locate (executable : String) : MachineM (Except String Path) := do
  let directories := ((← IO.getEnv "PATH").getD "").splitOn ":"
  for directory in directories do
    let path := (Path.mk directory).join executable
    if (← read path).toBool then return .ok path
  return .error (executable ++ ": cannot find binary path")

/-- Runs an executable and takes the time that it needs. -/
def run (path : Path) (input : Bytes) (deadline : Deadline) : MachineM Ending := do
  let directory ← IO.currentDir
  let now ← IO.monoNanosNow
  let (ending, finish) ← Shell.start files path ⟨directory.toString⟩ input now deadline
  let finish := match deadline with
    | some instant => min instant finish
    | none => finish
  IO.sleep ((finish - now) / 1000000).toUInt32
  return ending

def host : Host MachineM where
  files
  now := return ← IO.monoNanosNow
  log event := do (← IO.getStderr).putStrLn event.line
  locate
  run := run

end SchemaCompiler.Machine

open SchemaCompiler in
def main (args : List String) : IO UInt32 := do
  let compiler := Console.compiler (some Plugin.defaultTimeout)
  let args := "sdlc" :: args
  let (cancel, cancellations) := Cancellations.empty.newContext
  let ((result, _), _) ←
    ((compiler.run Machine.host [] args cancel).run (.start cancellations)).run ⟨[], 0⟩
  let bindings := compiler.registry.bindingsFor compiler.plugin args
  let report := Console.report (Console.help (bindings.flatMap (·.switchHelps))) result
  (← IO.getStdout).putStr report.output
  (← IO.getStderr).putStr report.messages
  return report.status.toUInt32
