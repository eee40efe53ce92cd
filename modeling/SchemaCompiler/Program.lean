import SchemaCompiler.Cancel
import SchemaCompiler.Event
import SchemaCompiler.FileSystem

/-!
Programs: what the compiler and its generators do, one action at a time.

A program asks its surroundings to perform an action and goes on with the answer. What an action
means is said elsewhere, once for files in memory and once for the disk, and programs that share
their surroundings can be interleaved action by action.
-/

namespace SchemaCompiler

/-- How a process that ran for a plugin ended. -/
inductive Ending where
  | notStarted (error : IoError)
  /-- It was killed because its time was over. -/
  | stopped
  /-- Talking to it went wrong. -/
  | broken (reason : String)
  /-- It ended by itself; without a status if a signal ended it. -/
  | exited (status : Option Nat) (output messages : Bytes)
deriving DecidableEq, Repr

inductive Action where
  | read (path : Path)
  | isFile (path : Path)
  | makeDirectories (path : Path)
  | create (path : Path)
  | write (handle : Handle) (data : Bytes)
  | flush (handle : Handle)
  | drop (handle : Handle)
  /-- Begins a record of what is written below a directory. -/
  | newOutput (directory : Path)
  /-- Makes the directory of an output unless that has been done. -/
  | prepare (output : Nat)
  /-- Takes a file name of an output, if it is not taken. -/
  | claim (output : Nat) (name : String)
  | isDone (context : CancelContext)
  | cancel (context : CancelContext)
  | withTimeout (context : CancelContext) (timeout : Nat)
  | log (event : Event)
  /-- Notes that the generator of an entry is called for a document. -/
  | call (entry : Nat) (document : String)
  /-- Finds an executable, or remembers what became of looking for it. -/
  | locate (executable : String)
  /-- Runs an executable on an input until it ends or `limit` is done. -/
  | run (executable : Path) (input : Bytes) (limit : CancelContext)

abbrev Action.Answer : Action → Type
  | read _ => Except IoError Bytes
  | isFile _ => Bool
  | makeDirectories _ => Except IoError Unit
  | create _ => Except IoError Handle
  | write _ _ => Except IoError Unit
  | flush _ => Except IoError Unit
  | drop _ => Unit
  | newOutput _ => Nat
  | prepare _ => Except IoError Unit
  | claim _ _ => Bool
  | isDone _ => Bool
  | cancel _ => Unit
  | withTimeout _ _ => CancelContext
  | log _ => Unit
  | call _ _ => Unit
  | locate _ => Except String Path
  | run _ _ _ => Ending

inductive Program (α : Type) where
  | done (result : α)
  | ask (action : Action) (next : action.Answer → Program α)

namespace Program

def bind {α β : Type} : Program α → (α → Program β) → Program β
  | done a, f => f a
  | ask action next, f => ask action fun answer => (next answer).bind f

instance : Monad Program where
  pure := done
  bind := bind

/-- The program that performs one action. -/
def perform (action : Action) : Program action.Answer := ask action done

/-- Carries a program out, given what each action does. -/
def run {m : Type → Type} {α : Type} [Monad m] (act : (action : Action) → m action.Answer) :
    Program α → m α
  | done a => pure a
  | ask action next => do
    let answer ← act action
    (next answer).run act

theorem bind_assoc {α β γ : Type} (p : Program α) (f : α → Program β) (g : β → Program γ) :
    (p.bind f).bind g = p.bind fun a => (f a).bind g := by
  induction p with
  | done a => rfl
  | ask action next ih => simp only [bind, ih]

theorem bind_done {α : Type} (p : Program α) : p.bind done = p := by
  induction p with
  | done a => rfl
  | ask action next ih => simp only [bind, ih]

instance : LawfulMonad Program :=
  LawfulMonad.mk' Program (fun p => bind_done p) (fun _ _ => rfl) bind_assoc

/-! ## Several programs at once -/

/-- Performs the next action of the program at `i`, if it has one. -/
def stepAt {m : Type → Type} {α : Type} [Monad m] (act : (action : Action) → m action.Answer)
    (i : Nat) (programs : List (Program α)) : m (List (Program α)) :=
  match programs[i]? with
  | some (ask action next) => do
    let answer ← act action
    return programs.set i (next answer)
  | _ => return programs

/-- Carries out all programs. The schedule says whose action comes next; once it is used up, the
programs are finished one after another. -/
def runAll {m : Type → Type} {α : Type} [Monad m] (act : (action : Action) → m action.Answer) :
    (schedule : List Nat) → List (Program α) → m (List α)
  | [], programs => programs.mapM (·.run act)
  | i :: schedule, programs => do
    let programs ← stepAt act i programs
    runAll act schedule programs

end Program

end SchemaCompiler
