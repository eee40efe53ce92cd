import SchemaCompiler.FileSystem.Memory
import SchemaCompiler.Run
import SchemaCompiler.Shell.Process

/-!
A host held in memory: files, a directory tree with executables, a clock and a log.
-/

namespace SchemaCompiler

structure Sandbox where
  memory : Memory
  /-- Where executables lie and run. -/
  disk : Disk
  /-- The directories in which executables are looked for. -/
  searchPath : List Path
  now : Instant
  /-- The last event first. -/
  log : List Event
deriving Repr

namespace Sandbox

def empty : Sandbox := { memory := .empty, disk := .empty, searchPath := [], now := 0, log := [] }

/-- Operations on the files in memory. -/
def memoryFiles : FileSystem (StateM Sandbox) :=
  Memory.fileSystem.lift fun operation s =>
    let (result, memory) := operation s.memory
    (result, { s with memory })

/-- Operations on the directory tree. -/
def diskFiles : FileSystem (StateM Sandbox) :=
  Disk.fileSystem.lift fun operation s =>
    let (result, disk) := operation s.disk
    (result, { s with disk })

def isExecutable (d : Disk) (path : Path) : Bool :=
  match d.nodeAt? path with
  | some (.file _ executable) => executable
  | _ => false

/-- Where an executable may lie. A name of several components is a path of its own. -/
def candidates (s : Sandbox) (executable : String) : List Path :=
  let path : Path := ⟨executable⟩
  if path.isAbsolute then [path]
  else if path.components.length > 1 then
    [(path.components.dropWhile (· == .current)).foldl
      (fun place component => place.join component.text) s.disk.workingPath]
  else s.searchPath.map (·.join executable)

def locate (s : Sandbox) (executable : String) : Except String Path :=
  match (s.candidates executable).find? (isExecutable s.disk) with
  | some path => .ok path
  | none => .error (executable ++ ": cannot find binary path")

/-- Runs an executable on the directory tree. The clock goes on by the time that it takes. -/
def run (s : Sandbox) (path : Path) (input : Bytes) (deadline : Deadline) : Ending × Sandbox :=
  if s.disk.isFile path && !isExecutable s.disk path then
    (.notStarted SystemError.permissionDenied.ioError, s)
  else
    let ((ending, now), disk) :=
      (Shell.start Disk.fileSystem path s.disk.workingPath input s.now deadline :
        StateM Disk _) s.disk
    (ending, { s with disk, now })

/-- The host whose file operations are `files`. -/
def host (files : FileSystem (StateM Sandbox)) : Host (StateM Sandbox) where
  files
  now := return (← get).now
  log event := modify fun s => { s with log := event :: s.log }
  locate executable := return (← get).locate executable
  run path input deadline s := s.run path input deadline

end Sandbox

end SchemaCompiler
