import SchemaCompiler.FileSystem.Writers

/-!
A directory tree in memory, with the error messages of a disk.
-/

namespace SchemaCompiler

/-- The errors of the operating system that file operations run into. -/
inductive SystemError where
  | noEntry
  | formatError
  | permissionDenied
  | alreadyExists
  | notDirectory
  | isDirectory
  | nameTooLong
deriving DecidableEq, Repr

namespace SystemError

def code : SystemError → Nat
  | noEntry => 2
  | formatError => 8
  | permissionDenied => 13
  | alreadyExists => 17
  | notDirectory => 20
  | isDirectory => 21
  | nameTooLong => 36

def words : SystemError → String
  | noEntry => "No such file or directory"
  | formatError => "Exec format error"
  | permissionDenied => "Permission denied"
  | alreadyExists => "File exists"
  | notDirectory => "Not a directory"
  | isDirectory => "Is a directory"
  | nameTooLong => "File name too long"

def all : List SystemError :=
  [noEntry, formatError, permissionDenied, alreadyExists, notDirectory, isDirectory, nameTooLong]

def kind : SystemError → IoErrorKind
  | noEntry => .notFound
  | permissionDenied => .permissionDenied
  | _ => .other

def ioError (e : SystemError) : IoError :=
  ⟨e.kind, e.words ++ " (os error " ++ toString e.code ++ ")"⟩

end SystemError

inductive Node where
  | directory
  | file (content : Bytes) (executable : Bool)
deriving DecidableEq, Repr

/-- The names on the way from the root. -/
abbrev Place := List String

structure Disk where
  /-- All nodes but the root, which is a directory. -/
  nodes : List (Place × Node)
  /-- Where relative paths begin. -/
  working : Place
  writers : Writers Place
deriving DecidableEq, Repr

namespace Disk

def empty : Disk := ⟨[], [], .empty⟩

def workingPath (d : Disk) : Path := ⟨"/" ++ String.intercalate "/" d.working⟩

def node? (d : Disk) (place : Place) : Option Node :=
  if place.isEmpty then some .directory else d.nodes.lookup place

def put (d : Disk) (place : Place) (node : Node) : Disk :=
  { d with nodes := (place, node) :: d.nodes.filter (·.1 != place) }

/-- Sets the content of a file; whether it can be executed stays as it is. -/
def putContent (d : Disk) (place : Place) (content : Bytes) : Disk :=
  match d.node? place with
  | some (.file _ executable) => d.put place (.file content executable)
  | _ => d.put place (.file content false)

/-! ## Paths -/

def maxNameLength : Nat := 255

/-- Follows components from a directory. Only the last one may be missing. -/
def follow (d : Disk) (place : Place) : List Path.Component → Except SystemError Place
  | [] => .ok place
  | component :: rest =>
    match component, d.node? place with
    | .root, _ => follow d [] rest
    | _, none => .error .noEntry
    | _, some (.file _ _) => .error .notDirectory
    | .current, some .directory => follow d place rest
    | .parent, some .directory => follow d place.dropLast rest
    | .normal name, some .directory =>
      if name.utf8ByteSize > maxNameLength then .error .nameTooLong
      else follow d (place ++ [name]) rest

/-- Whether the spelling of a path says that it is a directory. -/
def namesDirectory (path : Path) : Bool :=
  match path.text.toList.reverse with
  | '/' :: _ | '.' :: '/' :: _ => true
  | _ => false

/-- The place of a file, which need not exist. -/
def placeOf (d : Disk) (path : Path) : Except SystemError Place := do
  if path.text.isEmpty then throw .noEntry
  let place ← d.follow d.working path.components
  if let some (.file _ _) := d.node? place then
    if namesDirectory path then throw .notDirectory
  return place

def nodeAt? (d : Disk) (path : Path) : Option Node :=
  match d.placeOf path with
  | .ok place => d.node? place
  | .error _ => none

/-! ## Operations -/

def read (d : Disk) (path : Path) : Except SystemError Bytes := do
  match d.node? (← d.placeOf path) with
  | none => throw .noEntry
  | some .directory => throw .isDirectory
  | some (.file content _) => return content

def isFile (d : Disk) (path : Path) : Bool :=
  match d.nodeAt? path with
  | some (.file _ _) => true
  | _ => false

/-- Makes the missing directories on the way along components. -/
def makeAlong (d : Disk) (place : Place) : List Path.Component → Except SystemError Disk
  | [] => .ok d
  | .root :: rest => makeAlong d [] rest
  | .current :: rest => makeAlong d place rest
  | .parent :: rest => makeAlong d place.dropLast rest
  | .normal name :: rest =>
    let place := place ++ [name]
    match d.node? place with
    | some .directory => makeAlong d place rest
    | some (.file _ _) => .error (if rest.isEmpty then .alreadyExists else .notDirectory)
    | none =>
      if name.utf8ByteSize > maxNameLength then .error .nameTooLong
      else makeAlong (d.put place .directory) place rest

def makeDirectories (d : Disk) (path : Path) : Except SystemError Disk :=
  d.makeAlong d.working path.components

def create (d : Disk) (path : Path) : Except SystemError (Handle × Disk) := do
  let place ← d.placeOf path
  if d.node? place = some .directory then throw .isDirectory
  let (handle, writers) := d.writers.add place
  return (handle, { d.putContent place [] with writers })

def write (d : Disk) (handle : Handle) (data : Bytes) : Disk :=
  { d with writers := d.writers.append handle data }

def flush (d : Disk) (handle : Handle) : Disk :=
  match d.writers.get? handle with
  | none => d
  | some w => d.putContent w.place w.data

def drop (d : Disk) (handle : Handle) : Disk :=
  let d := d.flush handle
  { d with writers := d.writers.remove handle }

/-- The files below a directory, named as seen from it. -/
def filesBelow (d : Disk) (place : Place) : List (String × Bytes) :=
  d.nodes.filterMap fun (other, node) =>
    match node with
    | .file content _ =>
      if place.isPrefixOf other then
        some (String.intercalate "/" (other.drop place.length), content)
      else none
    | .directory => none

/-- Carries out an operation that may change the tree. -/
def change {α : Type} (operation : Disk → Except SystemError (α × Disk)) :
    StateM Disk (Except IoError α) := fun d =>
  match operation d with
  | .ok (a, d) => (.ok a, d)
  | .error e => (.error e.ioError, d)

def fileSystem : FileSystem (StateM Disk) where
  read path := return ((← get).read path).mapError (·.ioError)
  isFile path := return (← get).isFile path
  makeDirectories path := change fun d => return ((), ← d.makeDirectories path)
  create path := change (·.create path)
  write handle data := change fun d => return ((), d.write handle data)
  flush handle := change fun d => return ((), d.flush handle)
  drop handle := modify (·.drop handle)

end Disk

end SchemaCompiler
