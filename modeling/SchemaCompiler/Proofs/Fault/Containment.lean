import SchemaCompiler.Fault

/-!
Guards inside guards.

All guards of a thread share one count and one note of a panic. While work runs, the count is the
number of guards around it, and nothing is noted: a panic is noted where it is raised, on its way to
the innermost guard around it, and this guard takes the note away again. So a guard never finds the
note of another panic than the one that ended its own piece of work, and it leaves the thread as it
found it.
-/

namespace SchemaCompiler

variable {ε α : Type} {report : InternalFault → ε}

/-- What a panic says, with its place if that is known. -/
def Panic.words (p : Panic) : String :=
  match p.location with
  | some location => p.payload.message ++ " (at " ++ location ++ ")"
  | none => p.payload.message

namespace Thread

/-- A thread that runs inside so many guards and has noted nothing. -/
def inside (guards : Nat) : Thread := ⟨guards, none⟩

theorem inside_deeper (guards : Nat) :
    { inside guards with depth := (inside guards).depth + 1 } = inside (guards + 1) := rfl

/-- Inside a guard, a panic becomes a fault with its own words and the stack of its own place. -/
theorem internalFault_raise (guards : Nat) (p : Panic) :
    { (inside (guards + 1)).raise p with depth := guards }.internalFault p =
      (⟨p.words, (inside (guards + 1)).stack⟩, inside guards) := by
  obtain ⟨payload, _ | location⟩ := p <;> rfl

end Thread

open Thread (inside)

/-! ## One guard -/

section

variable {guards : Nat} {body : Thread → Except (Abort ε) α × Thread}

theorem guarded_of_done {result : Except ε α}
    (h : body (inside (guards + 1)) = (result.mapError .failed, inside (guards + 1))) :
    guarded report body (inside guards) = (result, inside guards) := by
  rw [guarded, Thread.inside_deeper, h]
  cases result <;> rfl

theorem guarded_of_panic {p : Panic}
    (h : body (inside (guards + 1)) =
      (.error (.panicked p), (inside (guards + 1)).raise p)) :
    guarded report body (inside guards) =
      (.error (report ⟨p.words, (inside (guards + 1)).stack⟩), inside guards) := by
  have left : { (inside (guards + 1)).raise p with
      depth := ((inside (guards + 1)).raise p).depth - 1 } =
    { (inside (guards + 1)).raise p with depth := guards } := rfl
  rw [guarded, Thread.inside_deeper, h]
  simp only [left, Thread.internalFault_raise]

end

/-! ## Trees of guards -/

namespace GuardedWork

/-- In the course of `work`, begun on the thread `t`, the work `reached` is run on `t'`, with
`levels` more guards around it. -/
inductive Reaches (report : InternalFault → ε) :
    GuardedWork ε α → Thread → (levels : Nat) → GuardedWork ε α → Thread → Prop
  | here (work : GuardedWork ε α) (t : Thread) : Reaches report work t 0 work t
  /-- The piece runs within the guard. -/
  | within {piece reached : GuardedWork ε α} {next : Except ε α → GuardedWork ε α} {levels : Nat}
    {t t' : Thread} (h : Reaches report piece { t with depth := t.depth + 1 } levels reached t') :
    Reaches report (guard piece next) t (levels + 1) reached t'
  /-- What follows runs when the guard has returned. -/
  | behind {piece reached : GuardedWork ε α} {next : Except ε α → GuardedWork ε α} {levels : Nat}
    {t t' : Thread}
    (h : Reaches report (next (guarded report (piece.run report) t).1)
      (guarded report (piece.run report) t).2 levels reached t') :
    Reaches report (guard piece next) t levels reached t'

/-- How work ends that is run inside so many guards: by an end of its own, which it reaches outside
all guards that it sets up itself. -/
inductive Ends (report : InternalFault → ε) (work : GuardedWork ε α) (guards : Nat) :
    Except (Abort ε) α × Thread → Prop
  | done (result : Except ε α)
    (h : Reaches report work (inside guards) 0 (.done result) (inside guards)) :
    Ends report work guards (result.mapError .failed, inside guards)
  | panic (p : Panic) (h : Reaches report work (inside guards) 0 (.panic p) (inside guards)) :
    Ends report work guards (.error (.panicked p), (inside guards).raise p)

theorem Reaches.of_guarded {piece reached : GuardedWork ε α}
    {next : Except ε α → GuardedWork ε α} {levels : Nat} {t t₁ t' : Thread} {result : Except ε α}
    (returned : guarded report (piece.run report) t = (result, t₁))
    (h : Reaches report (next result) t₁ levels reached t') :
    Reaches report (guard piece next) t levels reached t' := by
  refine .behind ?_
  rwa [returned]

theorem run_guard {piece : GuardedWork ε α} {next : Except ε α → GuardedWork ε α} {t t' : Thread}
    {result : Except ε α} (returned : guarded report (piece.run report) t = (result, t')) :
    (guard piece next).run report t = (next result).run report t' := by
  rw [run, returned]

/-- Every guard around work that ends returns and leaves the thread as it was. -/
theorem Ends.guarded {piece : GuardedWork ε α} {guards : Nat}
    (h : Ends report piece (guards + 1) (piece.run report (inside (guards + 1)))) :
    ∃ result, guarded report (piece.run report) (inside guards) = (result, inside guards) := by
  generalize ran : piece.run report (inside (guards + 1)) = ended at h
  cases h with
  | done result => exact ⟨_, guarded_of_done ran⟩
  | panic p => exact ⟨_, guarded_of_panic ran⟩

/-- All work ends, however its guards are nested. -/
theorem ends_run (report : InternalFault → ε) (work : GuardedWork ε α) (guards : Nat) :
    Ends report work guards (work.run report (inside guards)) := by
  induction work generalizing guards with
  | done result => exact .done result (.here _ _)
  | panic p => exact .panic p (.here _ _)
  | guard piece next inner behind =>
    obtain ⟨result, returned⟩ := (inner (guards + 1)).guarded
    have rest := behind result guards
    rw [run_guard returned]
    generalize (next result).run report (inside guards) = ended at rest ⊢
    cases rest with
    | done final h => exact .done final (h.of_guarded returned)
    | panic p h => exact .panic p (h.of_guarded returned)

theorem exists_guarded (report : InternalFault → ε) (piece : GuardedWork ε α) (guards : Nat) :
    ∃ result, guarded report (piece.run report) (inside guards) = (result, inside guards) :=
  (ends_run report piece (guards + 1)).guarded

/-- Wherever work comes, the thread counts the guards around it and has noted nothing. -/
theorem Reaches.thread_eq {work reached : GuardedWork ε α} {t t' : Thread} {levels : Nat}
    (h : Reaches report work t levels reached t') (guards : Nat) (begun : t = inside guards) :
    t' = inside (guards + levels) := by
  induction h generalizing guards with
  | here => exact begun
  | @within piece reached next levels t t' _ ih =>
    subst begun
    rw [ih (guards + 1) rfl, Nat.add_assoc, Nat.add_comm 1]
  | @behind piece reached next levels t t' _ ih =>
    subst begun
    obtain ⟨result, returned⟩ := exists_guarded report piece guards
    exact ih guards (by rw [returned])

/-- Outside its own guards, work goes on as what it has reached. -/
theorem Reaches.run_eq {work reached : GuardedWork ε α} {t t' : Thread} {levels : Nat}
    (h : Reaches report work t levels reached t') (outside : levels = 0) :
    work.run report t = reached.run report t' := by
  induction h with
  | here => rfl
  | within => cases outside
  | behind _ ih => exact (run_guard rfl).trans (ih outside)

end GuardedWork

end SchemaCompiler
