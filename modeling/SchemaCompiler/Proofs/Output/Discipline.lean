import SchemaCompiler.Generator.Pages
import SchemaCompiler.Generator.Sample
import SchemaCompiler.Proofs.Output.Places
import SchemaCompiler.Proofs.Output.Steps
import SchemaCompiler.Proofs.Plugin.Phases

/-!
Programs that write only through an output.

Such a program opens files of the output, uses files, and otherwise asks for nothing that changes
files. Seen action by action, it makes the directory of the output before anything else, takes an
accepted name, and creates the file of that name once.
-/

namespace SchemaCompiler

variable {α β : Type}

namespace Program

/-- The program changes files through the output only. -/
inductive Through (o : Output) : Program α → Prop where
  | done (a : α) : Through o (.done a)
  | openFile (name : String) {next : Except OutputError OutputFile → Program α}
    (later : ∀ answer, Through o (next answer)) : Through o ((o.openFile name).run.bind next)
  | write (file : OutputFile) (data : Bytes) {next : Except IoError Unit → Program α}
    (later : ∀ answer, Through o (next answer)) : Through o ((file.write data).run.bind next)
  | flush (file : OutputFile) {next : Except IoError Unit → Program α}
    (later : ∀ answer, Through o (next answer)) : Through o (file.flush.run.bind next)
  | close (file : OutputFile) {next : Except OutputError Unit → Program α}
    (later : ∀ answer, Through o (next answer)) : Through o (file.close.run.bind next)
  | drop (file : OutputFile) {next : Unit → Program α}
    (later : ∀ answer, Through o (next answer)) : Through o (file.drop.bind next)
  | other {action : Action} (aside : action.changesFiles = false)
    {next : action.Answer → Program α} (later : ∀ answer, Through o (next answer)) :
    Through o (.ask action next)

/-- How far a program is with a file that it wants to open. -/
inductive Stage where
  /-- The directory may be missing. -/
  | idle
  /-- The directory is there. -/
  | ready
  /-- A name is taken, and its file is not created yet. -/
  | holding (name : String)

/-- The program keeps to the order of steps in which files of the output are opened. -/
def Along (o : Output) : Stage → Program α → Prop
  | _, .done _ => True
  | _, .ask (.prepare id) next =>
    id = o.id ∧ (∀ e, Along o .idle (next (.error e))) ∧ Along o .ready (next (.ok ()))
  | stage, .ask (.makeDirectories path) next =>
    stage = .ready ∧ Output.Below o.directory path ∧ ∀ answer, Along o .ready (next answer)
  | stage, .ask (.claim id name) next =>
    stage = .ready ∧ id = o.id ∧ FileName.fault? name = none ∧
      Along o (.holding name) (next true) ∧ Along o .ready (next false)
  | stage, .ask (.create path) next =>
    ∃ name, stage = .holding name ∧ path = o.place name ∧ ∀ answer, Along o .ready (next answer)
  | _, .ask (.newOutput _) _ => False
  | stage, .ask _ next => ∀ answer, Along o stage (next answer)

variable {o : Output}

/-! ## The order of steps -/

theorem Along.weaken {p : Program α} (h : Along o .idle p) : Along o .ready p := by
  induction p with
  | done a => trivial
  | ask action next ih => cases action <;> simp_all [Along]

/-- Actions that are no steps of opening a file may come at any time. -/
theorem along_of_aside {stage : Stage} {action : Action} {next : action.Answer → Program α}
    (aside : action.changesFiles = false) (later : ∀ answer, Along o stage (next answer)) :
    Along o stage (.ask action next) := by
  cases action <;> first | exact later | cases aside

theorem along_makeParent {name : String} (accepted : FileName.fault? name = none)
    {next : Except OutputError Unit → Program α} (later : ∀ answer, Along o .ready (next answer)) :
    Along o .ready ((o.makeParent name).run.bind next) := by
  cases nested : name.toList.contains '/' with
  | false =>
    rw [Output.run_makeParent_flat nested]
    exact later _
  | true =>
    obtain ⟨parent, here, below⟩ := o.parent?_place accepted nested
    rw [Output.run_makeParent_nested nested here]
    refine ⟨rfl, below, fun answer => ?_⟩
    cases answer <;> exact later _

theorem along_openFile (name : String) {next : Except OutputError OutputFile → Program α}
    (later : ∀ answer, Along o .idle (next answer)) :
    Along o .idle ((o.openFile name).run.bind next) := by
  cases accepted : FileName.fault? name with
  | some fault =>
    rw [Output.run_openFile_of_fault accepted]
    exact later _
  | none =>
    rw [Output.run_openFile accepted]
    refine ⟨rfl, fun e => later _, ?_⟩
    change Along o .ready (Program.bind _ next)
    rw [Program.bind_assoc]
    refine along_makeParent accepted fun parent => ?_
    obtain e | ⟨⟩ := parent
    · exact (later _).weaken
    refine ⟨rfl, rfl, accepted, ⟨name, rfl, rfl, fun answer => ?_⟩, (later _).weaken⟩
    cases answer <;> exact (later _).weaken

/-- A program that writes only through an output opens files in the order of steps. -/
theorem Through.along {p : Program α} (h : Through o p) : Along o .idle p := by
  induction h with
  | done a => trivial
  | openFile name later ih => exact along_openFile name ih
  | write file data later ih =>
    rw [OutputFile.run_write]
    split
    · exact ih _
    · exact ih
  | flush file later ih => exact ih
  | close file later ih =>
    rw [OutputFile.run_close]
    exact fun flushed _ => ih _
  | drop file later ih => exact fun _ _ => ih _
  | other aside later ih => exact along_of_aside aside ih

theorem Asks.through {p : Program α} (h : Asks p) : Through o p := by
  induction h with
  | done a => exact .done a
  | ask aside _ ih => exact .other (Action.changesFiles_of_isAside aside) ih

/-! ## Work through an output -/

theorem Through.bind {p : Program α} {k : α → Program β} (h : Through o p)
    (later : ∀ a, Through o (k a)) : Through o (p.bind k) := by
  induction h with
  | done a => exact later a
  | openFile name _ ih =>
    rw [Program.bind_assoc]
    exact .openFile name ih
  | write file data _ ih =>
    rw [Program.bind_assoc]
    exact .write file data ih
  | flush file _ ih =>
    rw [Program.bind_assoc]
    exact .flush file ih
  | close file _ ih =>
    rw [Program.bind_assoc]
    exact .close file ih
  | drop file _ ih =>
    rw [Program.bind_assoc]
    exact .drop file ih
  | other aside _ ih => exact .other aside ih

theorem through_writeFile (name : String) (content : Bytes) :
    Through o (o.writeFile name content).run := by
  rw [Output.run_writeFile]
  refine .openFile name fun answer => ?_
  obtain e | file := answer
  · exact .done _
  refine .write file content fun answer => ?_
  obtain e | ⟨⟩ := answer
  · exact .drop file fun _ => .done _
  · rw [← Program.bind_done file.close.run]
    exact .close file .done

end Program

namespace Work

open Program (Through)

variable {o : Output} {ε δ : Type}

theorem through_bind {work : Work ε α} {next : α → Work ε β} (h : Through o work.run)
    (later : ∀ a, Through o (next a).run) : Through o (work >>= next).run := by
  refine h.bind fun result => ?_
  obtain e | a := result
  · exact .done _
  · exact later a

theorem through_adapt {ε δ : Type} {f : ε → δ} {work : ExceptT ε Program α}
    (h : Through o work.run) : Through o (ExceptT.adapt f work).run :=
  h.bind fun _ => .done _

theorem through_perform {action : Action} (aside : action.changesFiles = false) :
    Through o (Work.perform action : Work ε action.Answer).run :=
  .other aside fun _ => .done _

theorem through_writeFile (name : String) (content : Bytes) :
    Through o (Work.writeFile o name content).run :=
  through_adapt (through_adapt (Program.through_writeFile name content))

end Work

/-- The generator changes files through its output only. -/
def Generator.WritesThrough (g : Generator) : Prop :=
  ∀ a : Assignment, Program.Through a.output (g a).run

open Program (Through)
open Work (through_bind through_perform through_writeFile through_adapt)

theorem Behaviour.generator_writesThrough (b : Behaviour) (name : String) :
    (b.generator name).WritesThrough := by
  intro a
  refine through_adapt ?_
  cases b with
  | write | options | name => exact through_writeFile _ _
  | fail | panic => exact .done _
  | failOn document =>
    simp only [generate]
    split
    · exact .done _
    · exact through_writeFile _ _
  | panicOn document =>
    simp only [generate]
    split
    · exact .done _
    · exact through_writeFile _ _
  | cancel => exact through_bind (through_perform rfl) fun _ => through_writeFile _ _

theorem Pages.generator_writesThrough : Generator.WritesThrough Pages.generator := by
  intro a
  refine through_adapt ?_
  unfold generate
  cases PageOptions.ofMembers a.options with
  | error fault => exact .done _
  | ok options =>
    simp only [pure_bind]
    refine through_bind (through_perform rfl) fun done => ?_
    cases done with
    | true => exact .done _
    | false => exact through_bind (through_perform rfl) fun _ => through_writeFile _ _

theorem Plugin.useOutput_through (o : Output) (bytes : Bytes) :
    Through o (useOutput o bytes).run := by
  have files (files : List ResponseFile) :
      Through o (files.forM fun file => Work.writeFile o file.name file.content).run := by
    induction files with
    | nil => exact .done _
    | cons file files ih => exact through_bind (through_writeFile _ _) fun _ => ih
  unfold useOutput
  cases Response.decode bytes with
  | error e => exact .done _
  | ok response =>
    simp only
    split
    · split
      · exact .done _
      · exact through_bind (files response.files) fun _ => .done _
    · exact .done _

theorem Plugin.conclude_through (a : Assignment) (executable : Path) (ending : Ending) :
    Through a.output (conclude a executable ending).run := by
  cases ending with
  | notStarted | stopped | broken => exact .done _
  | exited status output messages =>
    have used : Through a.output (do
        let count ← useOutput a.output output
        Work.perform (.log (.pluginFinished executable count)) : Work GenerateError Unit).run :=
      through_bind (useOutput_through _ _) fun _ => through_perform rfl
    simp only [conclude]
    split
    · split
      · exact used
      · exact through_bind (through_perform rfl) fun _ => used
    · exact .done _

theorem Plugin.generator_writesThrough (p : Plugin) : p.generator.WritesThrough := by
  intro a
  refine through_adapt ?_
  rw [generate_eq]
  exact through_bind (p.asks_await a).through fun ended => conclude_through a ended.1 ended.2

end SchemaCompiler
