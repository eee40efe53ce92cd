/-!
Cancellation.

Work is handed a context and stops once the context is done. Contexts derived from one another
share a root: cancelling any of them cancels them all. A context may also have a deadline, which
those derived from it keep or bring forward.
-/

namespace SchemaCompiler

/-- Nanoseconds on a clock that never goes back. -/
abbrev Instant := Nat

/-- The last instant that the clock can show. -/
def lastInstant : Instant := 0x8000000000000000 * 1000000000 - 1

/-- A deadline, where no deadline is later than any. -/
abbrev Deadline := Option Instant

namespace Deadline

/-- The earlier of two deadlines. -/
def earlier : Deadline → Deadline → Deadline
  | some a, some b => some (min a b)
  | some a, none => some a
  | none, d => d

/-- A deadline that lies behind the end of the clock is none. -/
def after (now : Instant) (timeout : Nat) : Deadline :=
  if now + timeout ≤ lastInstant then some (now + timeout) else none

def isPast (d : Deadline) (now : Instant) : Bool :=
  match d with
  | some instant => instant ≤ now
  | none => false

/-- The order of deadlines in which none comes first. -/
def isBefore : Deadline → Deadline → Bool
  | none, some _ => true
  | some a, some b => a < b
  | _, none => false

end Deadline

structure CancelContext where
  /-- Shared by all contexts derived from one. -/
  root : Nat
  deadline : Deadline
deriving DecidableEq, Repr

/-- The roots given out so far and those of them that are cancelled. -/
structure Cancellations where
  count : Nat
  cancelled : List Nat
deriving DecidableEq, Repr

namespace Cancellations

def empty : Cancellations := ⟨0, []⟩

/-- A context with a root of its own. -/
def newContext (s : Cancellations) : CancelContext × Cancellations :=
  (⟨s.count, none⟩, { s with count := s.count + 1 })

def cancel (s : Cancellations) (c : CancelContext) : Cancellations :=
  { s with cancelled := c.root :: s.cancelled }

end Cancellations

namespace CancelContext

/-- A context that is also done once `timeout` has passed. -/
def withTimeout (c : CancelContext) (now : Instant) (timeout : Nat) : CancelContext :=
  { c with deadline := c.deadline.earlier (.after now timeout) }

def isCancelled (c : CancelContext) (s : Cancellations) : Bool := s.cancelled.contains c.root

def isDone (c : CancelContext) (s : Cancellations) (now : Instant) : Bool :=
  c.isCancelled s || c.deadline.isPast now

end CancelContext

end SchemaCompiler
