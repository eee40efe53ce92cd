import SchemaCompiler.Path
import SchemaCompiler.Text.Utf8

/-!
File systems.

A file system is a set of operations in some monad: on files held in memory, on a directory tree, or
on the disk. A file is written through a handle, which gathers data until it is flushed or dropped.
-/

namespace SchemaCompiler

inductive IoErrorKind where
  | notFound
  | permissionDenied
  | other
deriving DecidableEq, Repr

/-- Why an operation was refused, in the words of the file system. -/
structure IoError where
  kind : IoErrorKind
  text : String
deriving DecidableEq, Repr

/-- An open file. -/
abbrev Handle := Nat

structure FileSystem (m : Type → Type) where
  read : Path → m (Except IoError Bytes)
  isFile : Path → m Bool
  /-- Creates a directory and the missing ones above it. -/
  makeDirectories : Path → m (Except IoError Unit)
  /-- Opens an empty file in place of what was there. -/
  create : Path → m (Except IoError Handle)
  write : Handle → Bytes → m (Except IoError Unit)
  flush : Handle → m (Except IoError Unit)
  /-- Closes a file; what it gathered reaches the file system if it can. -/
  drop : Handle → m Unit

/-- The same operations in another monad. -/
def FileSystem.lift {m n : Type → Type} (f : {α : Type} → m α → n α) (fs : FileSystem m) :
    FileSystem n where
  read path := f (fs.read path)
  isFile path := f (fs.isFile path)
  makeDirectories path := f (fs.makeDirectories path)
  create path := f (fs.create path)
  write handle data := f (fs.write handle data)
  flush handle := f (fs.flush handle)
  drop handle := f (fs.drop handle)

end SchemaCompiler
