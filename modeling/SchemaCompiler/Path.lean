import SchemaCompiler.Text.Lines

/-!
Paths.

A path keeps its spelling, and two spellings name the same place when they have the same
components: repeated and trailing slashes and inner `.` components do not count. A leading `.` does.
-/

namespace SchemaCompiler

structure Path where
  text : String
deriving DecidableEq, Repr, Inhabited

namespace Path

inductive Component where
  | root
  | current
  | parent
  | normal (name : String)
deriving DecidableEq, Repr

namespace Component

def text : Component → String
  | root => "/"
  | current => "."
  | parent => ".."
  | normal name => name

/-- Roots come first, then `.`, then `..`, then names in the order of their bytes. -/
def compare : Component → Component → Ordering
  | normal a, normal b => Ord.compare a b
  | a, b => Ord.compare (rank a) (rank b)
where
  rank : Component → Nat
    | root => 0
    | current => 1
    | parent => 2
    | normal _ => 3

end Component

/-- A piece between slashes; `.` and empty pieces are no components. -/
def pieceComponent? (piece : List Char) : Option Component :=
  match piece with
  | [] | ['.'] => none
  | ['.', '.'] => some .parent
  | _ => some (.normal (String.ofList piece))

def componentsOf (cs : List Char) : List Component :=
  let front : List Component :=
    match cs with
    | '/' :: _ => [.root]
    | ['.'] | '.' :: '/' :: _ => [.current]
    | _ => []
  front ++ (Text.splitOnChar '/' cs).filterMap pieceComponent?

def components (p : Path) : List Component := componentsOf p.text.toList

/-- Lexicographic order of components; a path comes before everything inside it. -/
def compareComponents : List Component → List Component → Ordering
  | [], [] => .eq
  | [], _ :: _ => .lt
  | _ :: _, [] => .gt
  | a :: as, b :: bs => (a.compare b).then (compareComponents as bs)

def compare (p q : Path) : Ordering := compareComponents p.components q.components

/-- Whether two spellings name the same place. -/
def same (p q : Path) : Bool := p.components == q.components

def isAbsolute (p : Path) : Bool := p.text.toList.head? == some '/'

/-- `q` seen from `p`: an absolute `q` stands for itself. -/
def join (p : Path) (q : String) : Path :=
  if q.toList.head? == some '/' then ⟨q⟩
  else
    match p.text.toList.getLast? with
    | none | some '/' => ⟨p.text ++ q⟩
    | _ => ⟨p.text ++ "/" ++ q⟩

/-! ## File names -/

/-- The last component, if it is a name. -/
def fileName? (p : Path) : Option String :=
  match p.components.getLast? with
  | some (.normal name) => some name
  | _ => none

/-- A file name cut at its last dot. A dot that begins the name cuts nothing. -/
def cutExtension (name : List Char) : List Char × Option (List Char) :=
  let tail := name.reverse.takeWhile (· != '.')
  let front := name.reverse.dropWhile (· != '.')
  match front with
  | [] | ['.'] => (name, none)
  | _ :: stem => (stem.reverse, some tail.reverse)

def fileStem? (p : Path) : Option String :=
  p.fileName?.map fun name => String.ofList (cutExtension name.toList).1

def extension? (p : Path) : Option String :=
  p.fileName?.bind fun name => (cutExtension name.toList).2.map String.ofList

/-! ## Parents -/

/-- The spelling without slashes and `.` components at its end, given back to front. -/
def trimEnd : List Char → List Char
  | ['/'] => ['/']
  | '/' :: rest => trimEnd rest
  | '.' :: '/' :: rest => trimEnd ('/' :: rest)
  | cs => cs

/-- The spelling in front of the last component. -/
def parent? (p : Path) : Option Path :=
  match p.components.getLast? with
  | none | some .root => none
  | _ =>
    let front := (trimEnd p.text.toList.reverse).dropWhile (· != '/')
    some ⟨String.ofList (trimEnd front).reverse⟩

end Path

/-- Endings of the names of schema files. -/
def sourceExtensions : List String := ["gql", "graphql"]

/-- Whether the path names a schema file. -/
def hasSourceExtension (path : String) : Bool :=
  (Path.mk path).extension?.any sourceExtensions.contains

end SchemaCompiler
