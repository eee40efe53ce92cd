import SchemaCompiler.Document.Grammar
import SchemaCompiler.Path

/-!
Names of the documents of one run.

A document is named after its file, and no two documents of a run share a name.
-/

namespace SchemaCompiler

/-- The file stem of a path. -/
def documentName? (path : String) : Option String :=
  (Path.mk path).fileStem?.filter (· ≠ "")

/-- The names taken so far, each with the path that took it. -/
structure DocumentNames where
  taken : List (String × String)
deriving DecidableEq, Repr

namespace DocumentNames

def empty : DocumentNames := ⟨[]⟩

def path? (names : DocumentNames) (name : String) : Option String := names.taken.lookup name

def contains (names : DocumentNames) (name : String) : Bool := (names.path? name).isSome

def size (names : DocumentNames) : Nat := names.taken.length

/-- Parses a file under the name its path gives. The name is taken only if that succeeds. -/
def parse (names : DocumentNames) (path source : String) :
    Except SourceError Document × DocumentNames :=
  match documentName? path with
  | none => (.error ⟨path, .unnamed⟩, names)
  | some name =>
    match names.path? name with
    | some other => (.error ⟨path, .nameTaken name other⟩, names)
    | none =>
      match Document.ofSource name path source with
      | .error e => (.error e, names)
      | .ok doc => (.ok doc, ⟨(name, path) :: names.taken⟩)

end DocumentNames

end SchemaCompiler
