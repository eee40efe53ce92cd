import SchemaCompiler.Program
import SchemaCompiler.Wire.FileName

/-!
Outputs: the files that one generator writes below one directory.

The directory is made before the first file, and no name can be opened twice.
-/

namespace SchemaCompiler

inductive OutputError where
  | invalidName (name : String) (fault : FileName.Fault)
  | io (path : Path) (error : IoError)
  | duplicate (name : String)
deriving DecidableEq, Repr

def OutputError.message : OutputError → String
  | invalidName name fault => "invalid output path '" ++ name ++ "': " ++ fault.message
  | io path error => "I/O error on " ++ path.text ++ ": " ++ error.text
  | duplicate name => "output file '" ++ name ++ "' was already written in this run"

/-- The right to create files below a directory. -/
structure Output where
  /-- The number under which the run keeps track of it. -/
  id : Nat
  directory : Path
deriving DecidableEq, Repr

structure OutputFile where
  path : Path
  handle : Handle
deriving DecidableEq, Repr

namespace OutputFile

/-- Writing nothing asks nothing of the file system. -/
def write (file : OutputFile) (data : Bytes) : ExceptT IoError Program Unit :=
  if data.isEmpty then return () else Program.perform (.write file.handle data)

def flush (file : OutputFile) : ExceptT IoError Program Unit := Program.perform (.flush file.handle)

/-- Closes the file and does not ask whether what was written reached it. -/
def drop (file : OutputFile) : Program Unit := do
  let _ ← Program.perform (.flush file.handle)
  Program.perform (.drop file.handle)

/-- Closes the file, also if what was written did not reach it. -/
def close (file : OutputFile) : ExceptT OutputError Program Unit := do
  let flushed ← (Program.perform (.flush file.handle) : Program _)
  (Program.perform (.drop file.handle) : Program Unit)
  match flushed with
  | .ok () => return ()
  | .error e => throw (.io file.path e)

end OutputFile

namespace Output

def new (directory : Path) : Program Output := do
  return ⟨← Program.perform (.newOutput directory), directory⟩

/-- Performs an action of the file system on a path. -/
def onPath {α : Type} (path : Path) (answer : Program (Except IoError α)) :
    ExceptT OutputError Program α :=
  ExceptT.adapt (OutputError.io path) (ExceptT.mk answer)

/-- The place of a named file. -/
def place (o : Output) (name : String) : Path :=
  (FileName.segments name).foldl Path.join o.directory

/-- Makes the directory that a name with several segments lies in. -/
def makeParent (o : Output) (name : String) : ExceptT OutputError Program Unit :=
  if name.toList.contains '/' then
    match (o.place name).parent? with
    | some parent => onPath parent (Program.perform (.makeDirectories parent))
    | none => return ()
  else return ()

/-- Opens a new file for writing. Its name stays taken if creating the file fails. -/
def openFile (o : Output) (name : String) : ExceptT OutputError Program OutputFile := do
  if let some fault := FileName.fault? name then
    throw (.invalidName name fault)
  onPath o.directory (Program.perform (.prepare o.id))
  o.makeParent name
  unless ← (Program.perform (.claim o.id name) : Program Bool) do
    throw (.duplicate name)
  let path := o.place name
  let handle ← onPath path (Program.perform (.create path))
  return ⟨path, handle⟩

/-- Writes a whole file. -/
def writeFile (o : Output) (name : String) (content : Bytes) :
    ExceptT OutputError Program Unit := do
  let file ← o.openFile name
  match ← ((file.write content).run : Program _) with
  | .ok () => file.close
  | .error e =>
    (file.drop : Program Unit)
    throw (.io file.path e)

end Output

end SchemaCompiler
