import SchemaCompiler.FileSystem.Writers

/-!
A file system in memory.

It holds files in the order of their paths and counts how often directories were made; directories
themselves leave no trace. Operations on chosen paths can be made to fail.
-/

namespace SchemaCompiler

inductive FileOperation where
  | read
  | makeDirectories
  | create
  | write
  | flush
deriving DecidableEq, Repr

structure Memory where
  /-- In the order of paths, each place once. -/
  files : List (Path × Bytes)
  directoryCalls : Nat
  writers : Writers Path
  /-- The operations that fail. -/
  failing : List (FileOperation × Path)
deriving DecidableEq, Repr

namespace Memory

def empty : Memory := ⟨[], 0, .empty, []⟩

/-! ## Files -/

def get? (m : Memory) (path : Path) : Option Bytes :=
  (m.files.find? fun file => file.1.same path).map (·.2)

def contains (m : Memory) (path : Path) : Bool := (m.get? path).isSome

def paths (m : Memory) : List Path := m.files.map (·.1)

/-- Puts a file at its place; a file already there keeps its spelling. -/
def insertFile (path : Path) (data : Bytes) : List (Path × Bytes) → List (Path × Bytes)
  | [] => [(path, data)]
  | file :: files =>
    match path.compare file.1 with
    | .lt => (path, data) :: file :: files
    | .eq => (file.1, data) :: files
    | .gt => file :: insertFile path data files

def put (m : Memory) (path : Path) (data : Bytes) : Memory :=
  { m with files := insertFile path data m.files }

def ofFiles (files : List (Path × Bytes)) : Memory :=
  files.foldl (fun m file => m.put file.1 file.2) empty

def fails (m : Memory) (operation : FileOperation) (path : Path) : Bool :=
  m.failing.any fun (failing, place) => failing == operation && place.same path

/-- The error of an operation that was made to fail. -/
def injected : IoError := ⟨.other, "injected"⟩

/-! ## Operations -/

def noSuchFile (path : Path) : IoError := ⟨.notFound, path.text ++ ": no such file"⟩

def read (m : Memory) (path : Path) : Except IoError Bytes :=
  if m.fails .read path then .error injected
  else
    match m.get? path with
    | some data => .ok data
    | none => .error (noSuchFile path)

def makeDirectories (m : Memory) (path : Path) : Except IoError Unit × Memory :=
  if m.fails .makeDirectories path then (.error injected, m)
  else (.ok (), { m with directoryCalls := m.directoryCalls + 1 })

def create (m : Memory) (path : Path) : Except IoError Handle × Memory :=
  if m.fails .create path then (.error injected, m)
  else
    let (handle, writers) := m.writers.add path
    (.ok handle, { m.put path [] with writers })

def write (m : Memory) (handle : Handle) (data : Bytes) : Except IoError Unit × Memory :=
  match m.writers.get? handle with
  | none => (.error .closed, m)
  | some w =>
    if m.fails .write w.place then (.error injected, m)
    else (.ok (), { m with writers := m.writers.append handle data })

def flush (m : Memory) (handle : Handle) : Except IoError Unit × Memory :=
  match m.writers.get? handle with
  | none => (.error .closed, m)
  | some w =>
    if m.fails .flush w.place then (.error injected, m) else (.ok (), m.put w.place w.data)

/-- Everything written reaches the file, also if flushing it fails. -/
def drop (m : Memory) (handle : Handle) : Memory :=
  match m.writers.get? handle with
  | none => m
  | some w => { m.put w.place w.data with writers := m.writers.remove handle }

def fileSystem : FileSystem (StateM Memory) where
  read path := return (← get).read path
  isFile path := return (← get).contains path
  makeDirectories path m := m.makeDirectories path
  create path m := m.create path
  write handle data m := m.write handle data
  flush handle m := m.flush handle
  drop handle m := ((), m.drop handle)

end Memory

end SchemaCompiler
