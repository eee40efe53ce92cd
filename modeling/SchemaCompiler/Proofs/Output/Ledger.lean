import Mathlib.Data.List.DropRight
import SchemaCompiler.Proofs.Output.Discipline

/-!
Clients of an output and their ledgers.

A client opens files of an output, uses the files that it opened, and writes whole files; what it
does next may depend on the answers. A ledger lists what was done, with the answers, and keeping one
changes nothing. What a file has to hold is told from the ledger alone.
-/

namespace SchemaCompiler

/-- Something that was done with an output or with a file of it, and the answer. -/
inductive LedgerEntry where
  | opened (name : String) (answer : Except OutputError OutputFile)
  | wrote (file : OutputFile) (data : Bytes) (answer : Except IoError Unit)
  | flushed (file : OutputFile) (answer : Except IoError Unit)
  | closed (file : OutputFile) (answer : Except OutputError Unit)
  | dropped (file : OutputFile)
deriving DecidableEq, Repr

abbrev Ledger := List LedgerEntry

namespace LedgerEntry

/-- What was written through a handle. -/
def dataFor (handle : Handle) : LedgerEntry → Bytes
  | wrote file data (.ok ()) => if file.handle = handle then data else []
  | _ => []

/-- Whether the file of a handle was flushed. -/
def flushes (handle : Handle) : LedgerEntry → Bool
  | flushed file (.ok ()) => file.handle = handle
  | _ => false

/-- Whether the file of a handle was closed or dropped, whatever was reported. -/
def ends (handle : Handle) : LedgerEntry → Bool
  | closed file _ | dropped file => file.handle = handle
  | _ => false

end LedgerEntry

namespace Ledger

/-- All that was written through a handle. -/
def written (handle : Handle) (ledger : Ledger) : Bytes :=
  ledger.flatMap (LedgerEntry.dataFor handle)

/-- The ledger up to the last flush of a handle, which is nothing if there was none. -/
def untilFlushed (handle : Handle) (ledger : Ledger) : Ledger :=
  ledger.rdropWhile fun entry => !entry.flushes handle

/-- What a file has to hold, by the ledger behind its opening: all that was written through its
handle once it is closed or dropped, and before that what was written up to the last flush. -/
def due (handle : Handle) (ledger : Ledger) : Bytes :=
  written handle (if ledger.any (·.ends handle) then ledger else untilFlushed handle ledger)

end Ledger

/-- What a client does with an output and with the files that it opened there. -/
inductive Client : (files : List OutputFile) → Type where
  | done {files : List OutputFile} : Client files
  | openFile {files : List OutputFile} (name : String) (refused : OutputError → Client files)
    (opened : (file : OutputFile) → Client (file :: files)) : Client files
  | write {files : List OutputFile} (file : OutputFile) (own : file ∈ files) (data : Bytes)
    (next : Except IoError Unit → Client files) : Client files
  | flush {files : List OutputFile} (file : OutputFile) (own : file ∈ files)
    (next : Except IoError Unit → Client files) : Client files
  | close {files : List OutputFile} (file : OutputFile) (own : file ∈ files)
    (next : Except OutputError Unit → Client files) : Client files
  | drop {files : List OutputFile} (file : OutputFile) (own : file ∈ files)
    (next : Client files) : Client files
  | writeFile {files : List OutputFile} (name : String) (content : Bytes)
    (next : Except OutputError Unit → Client files) : Client files

namespace Client

/-- The client as a program. -/
def program (o : Output) : {files : List OutputFile} → Client files → Program Unit
  | _, done => .done ()
  | _, openFile name refused opened => (o.openFile name).run.bind fun
    | .error e => (refused e).program o
    | .ok file => (opened file).program o
  | _, write file _ data next => (file.write data).run.bind fun answer => (next answer).program o
  | _, flush file _ next => file.flush.run.bind fun answer => (next answer).program o
  | _, close file _ next => file.close.run.bind fun answer => (next answer).program o
  | _, drop file _ next => file.drop.bind fun _ => next.program o
  | _, writeFile name content next =>
    (o.writeFile name content).run.bind fun answer => (next answer).program o

end Client

/-- Ends with a ledger that has some entries in front. -/
def Program.noting (entries : Ledger) (p : Program Ledger) : Program Ledger :=
  p.bind fun ledger => .done (entries ++ ledger)

/-- Writes a whole file and tells how far that came: opening, writing and closing it, or dropping it
once writing is refused. -/
def Output.tellFile (o : Output) (name : String) (content : Bytes) :
    Program (Except OutputError Unit × Ledger) :=
  (o.openFile name).run.bind fun
    | .error e => .done (.error e, [.opened name (.error e)])
    | .ok file => (file.write content).run.bind fun
      | .ok () => file.close.run.bind fun answer =>
        .done (answer, [.opened name (.ok file), .wrote file content (.ok ()), .closed file answer])
      | .error e => file.drop.bind fun _ =>
        .done (.error (.io file.path e),
          [.opened name (.ok file), .wrote file content (.error e), .dropped file])

open Program (Through noting)

/-- The client as a program that keeps its ledger. -/
def Client.ledger (o : Output) : {files : List OutputFile} → Client files → Program Ledger
  | _, done => .done []
  | _, openFile name refused opened => (o.openFile name).run.bind fun
    | .error e => noting [.opened name (.error e)] ((refused e).ledger o)
    | .ok file => noting [.opened name (.ok file)] ((opened file).ledger o)
  | _, write file _ data next => (file.write data).run.bind fun answer =>
    noting [.wrote file data answer] ((next answer).ledger o)
  | _, flush file _ next => file.flush.run.bind fun answer =>
    noting [.flushed file answer] ((next answer).ledger o)
  | _, close file _ next => file.close.run.bind fun answer =>
    noting [.closed file answer] ((next answer).ledger o)
  | _, drop file _ next => file.drop.bind fun _ => noting [.dropped file] (next.ledger o)
  | _, writeFile name content next => (o.tellFile name content).bind fun told =>
    noting told.2 ((next told.1).ledger o)

/-! ## Keeping a ledger -/

section

variable {o : Output} {files : List OutputFile}

theorem Program.noting_forget (entries : Ledger) (p : Program Ledger) :
    ((noting entries p).bind fun _ => .done ()) = p.bind fun _ => .done () :=
  Program.bind_assoc _ _ _

/-- A use does not depend on what is noted behind it. -/
theorem Program.bind_forget {α : Type} (use : Program α) {next : α → Program Unit}
    {noted : α → Program Ledger} (same : ∀ a, next a = (noted a).bind fun _ => .done ()) :
    use.bind next = (use.bind noted).bind fun _ => .done () := by
  rw [Program.bind_assoc]
  exact congrArg use.bind (funext same)

theorem Output.tellFile_answer (name : String) (content : Bytes) :
    ((o.tellFile name content).bind fun told => .done told.1) = (o.writeFile name content).run := by
  rw [Output.run_writeFile, Output.tellFile, Program.bind_assoc]
  refine congrArg (Program.bind _) (funext fun opened => ?_)
  obtain e | file := opened
  · rfl
  refine (Program.bind_assoc _ _ _).trans (congrArg (Program.bind _) (funext fun written => ?_))
  obtain e | ⟨⟩ := written
  · exact Program.bind_assoc _ _ _
  · exact (Program.bind_assoc _ _ _).trans (Program.bind_done _)

/-- Keeping a ledger changes nothing of what a client does. -/
theorem Client.program_eq (c : Client files) :
    c.program o = (c.ledger o).bind fun _ => .done () := by
  induction c with
  | done => rfl
  | openFile name refused opened ihRefused ihOpened =>
    rw [Client.program, Client.ledger]
    refine Program.bind_forget _ fun answer => ?_
    obtain e | file := answer
    · exact (ihRefused e).trans (Program.noting_forget _ _).symm
    · exact (ihOpened file).trans (Program.noting_forget _ _).symm
  | write file own data next ih | flush file own next ih | close file own next ih =>
    exact Program.bind_forget _ fun answer => (ih answer).trans (Program.noting_forget _ _).symm
  | drop file own next ih =>
    exact Program.bind_forget _ fun _ => ih.trans (Program.noting_forget _ _).symm
  | writeFile name content next ih =>
    rw [Client.program, ← Output.tellFile_answer, Program.bind_assoc]
    exact Program.bind_forget _ fun told => (ih told.1).trans (Program.noting_forget _ _).symm

/-! ## Files of the output -/

theorem Program.noting_through {entries : Ledger} {p : Program Ledger} (h : Through o p) :
    Through o (noting entries p) :=
  h.bind fun _ => .done _

theorem Output.tellFile_through (name : String) (content : Bytes) :
    Through o (o.tellFile name content) := by
  refine .openFile name fun opened => ?_
  obtain e | file := opened
  · exact .done _
  refine .write file content fun written => ?_
  obtain e | ⟨⟩ := written
  · exact .drop file fun _ => .done _
  · exact .close file fun _ => .done _

/-- A client changes files through its output only. -/
theorem Client.ledger_through (c : Client files) : Through o (c.ledger o) := by
  induction c with
  | done => exact .done _
  | openFile name refused opened ihRefused ihOpened =>
    rw [Client.ledger]
    refine .openFile name fun answer => ?_
    obtain e | file := answer
    · exact Program.noting_through (ihRefused e)
    · exact Program.noting_through (ihOpened file)
  | write file own data next ih =>
    exact .write file data fun answer => Program.noting_through (ih answer)
  | flush file own next ih => exact .flush file fun answer => Program.noting_through (ih answer)
  | close file own next ih => exact .close file fun answer => Program.noting_through (ih answer)
  | drop file own next ih => exact .drop file fun _ => Program.noting_through ih
  | writeFile name content next ih =>
    exact (Output.tellFile_through name content).bind fun told => Program.noting_through (ih told.1)

end

end SchemaCompiler
