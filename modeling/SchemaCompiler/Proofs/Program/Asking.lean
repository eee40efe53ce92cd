import SchemaCompiler.Generator

/-!
Programs that keep to certain actions. Those that only ask something of their surroundings change no
files, open no outputs and cancel nothing; those that only look ask for nothing but files, and what
they come to depends on the files alone.
-/

namespace SchemaCompiler

variable {α β : Type}

namespace Action

/-- Actions that change files or what is kept of outputs. -/
def changesFiles : Action → Bool
  | .makeDirectories _ | .create _ | .write _ _ | .flush _ | .drop _
  | .newOutput _ | .prepare _ | .claim _ _ => true
  | _ => false

/-- Actions that only ask something of the surroundings. -/
def isAside : Action → Bool
  | .cancel _ => false
  | action => !action.changesFiles

/-- Actions that only look at files. -/
def isLook : Action → Bool
  | .read _ | .isFile _ | .log _ => true
  | _ => false

theorem changesFiles_of_isAside {action : Action} (h : action.isAside = true) :
    action.changesFiles = false := by
  cases action <;> first | rfl | cases h

theorem isAside_of_isLook {action : Action} (h : action.isLook = true) :
    action.isAside = true := by
  cases action <;> first | rfl | cases h

end Action

namespace Program

/-- All actions of the program are allowed. -/
inductive Only (allowed : Action → Bool) : Program α → Prop where
  | done (a : α) : Only allowed (.done a)
  | ask {action : Action} (kind : allowed action = true) {next : action.Answer → Program α}
    (later : ∀ answer, Only allowed (next answer)) : Only allowed (.ask action next)

/-- The program only asks something of its surroundings. -/
abbrev Asks : Program α → Prop := Only Action.isAside

/-- The program only looks at files. -/
abbrev Looks : Program α → Prop := Only Action.isLook

variable {allowed : Action → Bool}

theorem Only.bind {p : Program α} {k : α → Program β} (h : Only allowed p)
    (later : ∀ a, Only allowed (k a)) : Only allowed (p.bind k) := by
  induction h with
  | done a => exact later a
  | ask kind _ ih => exact .ask kind ih

theorem Looks.asks {p : Program α} (h : Looks p) : Asks p := by
  induction h with
  | done a => exact .done a
  | ask kind _ ih => exact .ask (Action.isAside_of_isLook kind) ih

end Program

open Program (Only)

variable {allowed : Action → Bool} {ε : Type}

theorem only_bind {work : ExceptT ε Program α} {next : α → ExceptT ε Program β}
    (h : Only allowed work.run) (later : ∀ a, Only allowed (next a).run) :
    Only allowed (work >>= next).run := by
  refine h.bind fun result => ?_
  obtain e | a := result
  · exact .done _
  · exact later a

theorem only_adapt {δ : Type} {f : ε → δ} {work : ExceptT ε Program α}
    (h : Only allowed work.run) : Only allowed (ExceptT.adapt f work).run :=
  h.bind fun _ => .done _

theorem only_lift {p : Program α} (h : Only allowed p) :
    Only allowed (ExceptT.lift p : ExceptT ε Program α).run :=
  h.bind fun _ => .done _

theorem only_perform {action : Action} (kind : allowed action = true) :
    Only allowed (Work.perform action : Work ε action.Answer).run :=
  only_lift (.ask kind .done)

end SchemaCompiler
