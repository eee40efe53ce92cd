import SchemaCompiler.FileSystem

/-!
Open files of a file system held in memory.
-/

namespace SchemaCompiler

/-- An open file, its place, and what was written to it. -/
structure Writer (π : Type) where
  handle : Handle
  place : π
  data : Bytes
deriving DecidableEq, Repr

structure Writers (π : Type) where
  writers : List (Writer π)
  /-- The handle of the next file to be opened. -/
  next : Handle
deriving DecidableEq, Repr

namespace Writers

variable {π : Type}

def empty : Writers π := ⟨[], 0⟩

def get? (ws : Writers π) (handle : Handle) : Option (Writer π) :=
  ws.writers.find? (·.handle == handle)

/-- Opens a file that nothing was written to yet. -/
def add (ws : Writers π) (place : π) : Handle × Writers π :=
  (ws.next, ⟨⟨ws.next, place, []⟩ :: ws.writers, ws.next + 1⟩)

def append (ws : Writers π) (handle : Handle) (data : Bytes) : Writers π :=
  { ws with
    writers := ws.writers.map fun w =>
      if w.handle == handle then { w with data := w.data ++ data } else w }

def remove (ws : Writers π) (handle : Handle) : Writers π :=
  { ws with writers := ws.writers.filter (·.handle != handle) }

end Writers

/-- The error of using a file that is not open. -/
def IoError.closed : IoError := ⟨.other, "file is closed"⟩

end SchemaCompiler
