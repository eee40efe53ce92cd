/-!
Faults: what becomes of a panic.

Work ends in a value, in an error that it chose, or in a panic. A guard around it turns a panic into
an internal fault. The panic itself is seen where it is raised, when the guards around it still
stand, so the thread notes its place and the stack there for the guard to pick up.
-/

namespace SchemaCompiler

/-- What a panic carries. -/
inductive Payload where
  | text (message : String)
  /-- Something that is no text. -/
  | other
deriving DecidableEq, Repr

def Payload.message : Payload → String
  | text message => message
  | other => "unknown panic payload"

structure Panic where
  payload : Payload
  /-- The place in the code, if known. -/
  location : Option String
deriving DecidableEq, Repr

/-- How work stops before it has a value. -/
inductive Abort (ε : Type) where
  | failed (error : ε)
  | panicked (panic : Panic)
deriving DecidableEq, Repr

/-- A panic as its guard reports it. -/
structure InternalFault where
  message : String
  stack : String
deriving DecidableEq, Repr

/-- What a thread notes when a panic is raised. -/
structure Sighting where
  location : Option String
  stack : String
deriving DecidableEq, Repr

structure Thread where
  /-- The guards around the running work. -/
  depth : Nat
  sighting : Option Sighting
deriving DecidableEq, Repr

namespace Thread

/-- A thread outside every guard. -/
def idle : Thread := ⟨0, none⟩

/-- One line for each guard, and one for the place itself. -/
def stack (t : Thread) : String :=
  String.join (List.replicate t.depth "guarded work\n") ++ "thread\n"

/-- Panics outside every guard are not noted. -/
def raise (t : Thread) (p : Panic) : Thread :=
  if t.depth = 0 then t else { t with sighting := some ⟨p.location, t.stack⟩ }

/-- The fault that a panic becomes, and the thread without what it had noted of it. -/
def internalFault (t : Thread) (p : Panic) : InternalFault × Thread :=
  match t.sighting with
  | some ⟨some location, stack⟩ =>
    (⟨p.payload.message ++ " (at " ++ location ++ ")", stack⟩, { t with sighting := none })
  | some ⟨none, stack⟩ => (⟨p.payload.message, stack⟩, { t with sighting := none })
  | none => (⟨p.payload.message, t.stack⟩, t)

end Thread

/-- Runs `body` one guard deeper; a panic becomes the error that `report` makes of it. -/
def guarded {ε α : Type} (report : InternalFault → ε)
    (body : Thread → Except (Abort ε) α × Thread) (t : Thread) : Except ε α × Thread :=
  let (result, t) := body { t with depth := t.depth + 1 }
  let t := { t with depth := t.depth - 1 }
  match result with
  | .ok value => (.ok value, t)
  | .error (.failed e) => (.error e, t)
  | .error (.panicked p) =>
    let (fault, t) := t.internalFault p
    (.error (report fault), t)

/-- The outcome of finished work as a guard around it reports it. -/
def contained {ε α : Type} (report : InternalFault → ε) (result : Except (Abort ε) α) :
    Except ε α :=
  let body (t : Thread) : Except (Abort ε) α × Thread :=
    match result with
    | .error (.panicked p) => (result, t.raise p)
    | _ => (result, t)
  (guarded report body .idle).1

/-- Work made of guarded pieces. -/
inductive GuardedWork (ε α : Type) where
  | done (result : Except ε α)
  | panic (panic : Panic)
  /-- Runs a piece inside a guard of its own and goes on with what the guard returns. -/
  | guard (piece : GuardedWork ε α) (next : Except ε α → GuardedWork ε α)

namespace GuardedWork

def run {ε α : Type} (report : InternalFault → ε) :
    GuardedWork ε α → Thread → Except (Abort ε) α × Thread
  | done result, t => (result.mapError .failed, t)
  | panic p, t => (.error (.panicked p), t.raise p)
  | guard piece next, t =>
    let (result, t) := guarded report (piece.run report) t
    (next result).run report t

end GuardedWork

end SchemaCompiler
