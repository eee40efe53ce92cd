import SchemaCompiler.Generator.Pages
import SchemaCompiler.Generator.Sample
import SchemaCompiler.Proofs.Output.Steps
import SchemaCompiler.Proofs.Program.Settling

/-!
Writing whole files, whatever the file system refuses.

What a generator comes to that writes whole files through its output, and asks for nothing else, is
settled by the names, the contents and the refusals.
-/

namespace SchemaCompiler

open Program (Settles)

variable {σ α : Type} {host : Host (StateM σ)} {view : Host.View host}
  {cancellations : Cancellations} {o : Output} {places : Path → Prop} {own : FileState}
  {taken : List String} {name : String}

/-- What becomes of a file that is opened, written and closed, and what it holds then. -/
def Host.View.written (view : Host.View host) (path : Path) (content : Bytes) :
    Except OutputError Unit × Bytes :=
  if content.isEmpty then ((view.verdict .flush path).mapError (.io path), [])
  else
    match view.verdict .write path with
    | .error e => (.error (.io path e), [])
    | .ok () => ((view.verdict .flush path).mapError (.io path), content)

/-- Flushing before dropping makes no difference to what is left. -/
theorem flush_then_put {verdict : Except IoError Unit} (own : FileState) (path : Path)
    (data : Bytes) :
    (FileState.unlessRefused verdict (own.put path data) own).put path data = own.put path data := by
  cases verdict with
  | ok => exact own.put_put path data data
  | error e => rfl

theorem desk_unlessRefused {verdict : Except IoError Unit} {own : FileState} {path : Path}
    {data : Bytes} {handle : Handle} :
    (FileState.unlessRefused verdict (own.put path data) own).desk handle = own.desk handle := by
  cases verdict <;> rfl

section

variable {file : OutputFile} {data : Bytes}
  (opened : own.desk file.handle = some (file.path, data))
include opened

theorem settles_close :
    Settles view cancellations o places
      (fun result f names => result = (view.verdict .flush file.path).mapError (.io file.path) ∧
        f = (own.put file.path data).hold file.handle none ∧ names = taken)
      file.close.run own taken := by
  rw [OutputFile.run_close]
  refine ⟨file.path, data, opened, file.path, data, by rw [desk_unlessRefused, opened], rfl, ?_, rfl⟩
  rw [flush_then_put]

theorem settles_drop :
    Settles view cancellations o places
      (fun _ f names => f = (own.put file.path data).hold file.handle none ∧ names = taken)
      file.drop own taken := by
  refine ⟨file.path, data, opened, file.path, data, by rw [desk_unlessRefused, opened], ?_, rfl⟩
  rw [flush_then_put]

end

/-- An open file is written and closed. -/
theorem settles_writing (file : OutputFile) (content : Bytes)
    (opened : own.desk file.handle = some (file.path, [])) :
    Settles view cancellations o places
      (fun result f names => result = (view.written file.path content).1 ∧
        f = (own.put file.path (view.written file.path content).2).hold file.handle none ∧
        names = taken)
      ((file.write content).run.bind fun
        | .ok () => file.close.run
        | .error e => file.drop.bind fun _ => .done (.error (.io file.path e))) own taken := by
  rw [OutputFile.run_write, Host.View.written]
  by_cases nothing : content.isEmpty
  · rw [if_pos nothing, if_pos nothing]
    exact settles_close opened
  rw [if_neg nothing, if_neg nothing]
  refine ⟨file.path, [], opened, ?_⟩
  cases view.verdict .write file.path with
  | error e =>
    refine (settles_drop opened).bind ?_
    rintro ⟨⟩ f names ⟨left, taken⟩
    exact ⟨rfl, left, taken⟩
  | ok =>
    have held : (own.hold file.handle (some (file.path, content))).desk file.handle =
        some (file.path, content) := by simp
    refine (settles_close held).mono ?_
    rintro result f names ⟨ended, left, taken⟩
    rw [FileState.hold_put, FileState.hold_hold] at left
    exact ⟨ended, left, taken⟩

/-! ## Opening files -/

/-- What becomes of the directory that a name with several segments lies in. -/
def Host.View.parentMade (view : Host.View host) (o : Output) (name : String) :
    Except OutputError Unit :=
  if name.toList.contains '/' then
    match (o.place name).parent? with
    | some parent => (view.verdict .makeDirectories parent).mapError (.io parent)
    | none => .ok ()
  else .ok ()

theorem settles_makeParent {Q : Except OutputError Unit → FileState → List String → Prop}
    (h : Q (view.parentMade o name) own taken) :
    Settles view cancellations o places Q (o.makeParent name).run own taken := by
  rw [Host.View.parentMade] at h
  cases nested : name.toList.contains '/' with
  | false =>
    rw [Output.run_makeParent_flat nested]
    rwa [nested] at h
  | true =>
    rw [nested, if_pos rfl] at h
    rcases here : (o.place name).parent? with - | parent
    · unfold Output.makeParent
      rw [here] at h
      rw [nested, here]
      exact h
    · rw [Output.run_makeParent_nested nested here, Program.settles_makeDirectories]
      simp only [here] at h
      cases verdict : view.verdict .makeDirectories parent <;> rwa [verdict] at h

/-- Why opening a name is refused, if it is, and which names are taken afterwards. -/
def Host.View.opening (view : Host.View host) (o : Output) (name : String) (taken : List String) :
    Except OutputError Unit × List String :=
  match FileName.fault? name, view.verdict .makeDirectories o.directory, view.parentMade o name with
  | some fault, _, _ => (.error (.invalidName name fault), taken)
  | none, .error e, _ => (.error (.io o.directory e), taken)
  | none, .ok (), .error e => (.error e, taken)
  | none, .ok (), .ok () =>
    if name ∈ taken then (.error (.duplicate name), taken)
    else ((view.verdict .create (o.place name)).mapError (.io (o.place name)), name :: taken)

theorem settles_openFile (place : places (o.place name)) :
    Settles view cancellations o places
      (fun result f names => names = (view.opening o name taken).2 ∧
        match (view.opening o name taken).1 with
        | .error e => result = .error e ∧ f = own
        | .ok () => ∃ handle, own.desk handle = none ∧ result = .ok ⟨o.place name, handle⟩ ∧
          f = (own.put (o.place name) []).hold handle (some (o.place name, [])))
      (o.openFile name).run own taken := by
  rw [Host.View.opening]
  cases accepted : FileName.fault? name with
  | some fault =>
    rw [Output.run_openFile_of_fault accepted]
    exact ⟨rfl, rfl, rfl⟩
  | none =>
    rw [Output.run_openFile accepted]
    refine ⟨rfl, ?_⟩
    cases view.verdict .makeDirectories o.directory with
    | error e => exact ⟨rfl, rfl, rfl⟩
    | ok =>
      refine (settles_makeParent ?_).bind id
      cases view.parentMade o name with
      | error e => exact ⟨rfl, rfl, rfl⟩
      | ok =>
        refine ⟨rfl, ?_⟩
        by_cases known : name ∈ taken
        · simp only [if_pos known]
          exact ⟨rfl, rfl, rfl⟩
        simp only [if_neg known]
        refine ⟨place, place, ?_, ?_⟩
        · intro e refused
          rw [refused]
          exact ⟨rfl, rfl, rfl⟩
        · intro made handle free
          rw [made]
          exact ⟨rfl, handle, free, rfl, rfl⟩

/-! ## Whole files -/

/-- What becomes of writing a whole file, and what it holds if it was created. -/
def Host.View.writing (view : Host.View host) (o : Output) (name : String) (content : Bytes)
    (taken : List String) : Except OutputError Unit × Option Bytes :=
  match (view.opening o name taken).1 with
  | .error e => (.error e, none)
  | .ok () =>
    ((view.written (o.place name) content).1, some (view.written (o.place name) content).2)

/-- A file that was written without an error holds all that was to be written. -/
theorem content_of_written {path : Path} {content : Bytes}
    (h : (view.written path content).1 = .ok ()) : (view.written path content).2 = content := by
  rw [Host.View.written] at h ⊢
  by_cases nothing : content.isEmpty
  · rw [if_pos nothing]
    exact (List.isEmpty_iff.mp nothing).symm
  · rw [if_neg nothing] at h ⊢
    cases verdict : view.verdict .write path with
    | error e =>
      rw [verdict] at h
      cases h
    | ok => rfl

theorem content_of_writing {content : Bytes}
    (h : (view.writing o name content taken).1 = .ok ()) :
    (view.writing o name content taken).2 = some content := by
  rw [Host.View.writing] at h ⊢
  cases opened : (view.opening o name taken).1 with
  | error e =>
    rw [opened] at h
    cases h
  | ok =>
    rw [opened] at h
    exact congrArg some (content_of_written h)

/-- What the file system refuses is never reported as a name that is taken. -/
theorem mapError_io_ne_duplicate {verdict : Except IoError Unit} {path : Path} {other : String} :
    verdict.mapError (OutputError.io path) ≠ .error (.duplicate other) := by
  cases verdict <;> exact nofun

theorem parentMade_ne_duplicate {other : String} :
    view.parentMade o name ≠ .error (.duplicate other) := by
  rw [Host.View.parentMade]
  split
  · split
    · exact mapError_io_ne_duplicate
    · exact nofun
  · exact nofun

theorem written_ne_duplicate {path : Path} {content : Bytes} {other : String} :
    (view.written path content).1 ≠ .error (.duplicate other) := by
  rw [Host.View.written]
  by_cases nothing : content.isEmpty
  · rw [if_pos nothing]
    exact mapError_io_ne_duplicate
  · rw [if_neg nothing]
    cases view.verdict .write path with
    | error e => exact nofun
    | ok => exact mapError_io_ne_duplicate

theorem opening_ne_duplicate (free : name ∉ taken) {other : String} :
    (view.opening o name taken).1 ≠ .error (.duplicate other) := by
  rw [Host.View.opening]
  split
  · exact nofun
  · exact nofun
  · rename_i e refused
    intro same
    cases same
    exact parentMade_ne_duplicate refused
  · rw [if_neg free]
    exact mapError_io_ne_duplicate

/-- Writing a file whose name is free does not find it taken. -/
theorem writing_ne_duplicate (free : name ∉ taken) {content : Bytes} {other : String} :
    (view.writing o name content taken).1 ≠ .error (.duplicate other) := by
  have unopened : (view.opening o name taken).1 ≠ .error (.duplicate other) :=
    opening_ne_duplicate free
  rw [Host.View.writing]
  cases opened : (view.opening o name taken).1 with
  | error e =>
    rw [opened] at unopened
    exact unopened
  | ok => exact written_ne_duplicate

/-- Writing a whole file leaves no file open. -/
theorem settles_writeFile (content : Bytes) (place : places (o.place name)) :
    Settles view cancellations o places
      (fun result f names => result = (view.writing o name content taken).1 ∧
        f = ((view.writing o name content taken).2.elim own (own.put (o.place name))) ∧
        names = (view.opening o name taken).2)
      (o.writeFile name content).run own taken := by
  rw [Output.run_writeFile, Host.View.writing]
  refine (settles_openFile place).bind ?_
  rintro result f names ⟨rfl, opened⟩
  cases refused : (view.opening o name taken).1 with
  | error e =>
    rw [refused] at opened
    obtain ⟨rfl, rfl⟩ := opened
    exact ⟨rfl, rfl, rfl⟩
  | ok =>
    rw [refused] at opened
    obtain ⟨handle, free, rfl, rfl⟩ := opened
    refine (settles_writing ⟨o.place name, handle⟩ content (by simp)).mono ?_
    rintro result f names ⟨rfl, rfl, rfl⟩
    refine ⟨rfl, ?_, rfl⟩
    rw [FileState.hold_put, FileState.hold_hold, FileState.put_put]
    exact FileState.hold_none _ (by rw [FileState.put_desk, free])

/-- The program writes whole files of names that it may use, and all else that it asks has one
answer. -/
inductive Program.WritesWhole (view : Host.View host) (cancellations : Cancellations) (o : Output)
    (allowed : String → Prop) : Program α → Prop
  | done (a : α) : WritesWhole view cancellations o allowed (.done a)
  | writeFile (name : String) (content : Bytes) (use : allowed name)
    {next : Except OutputError Unit → Program α}
    (later : ∀ result, WritesWhole view cancellations o allowed (next result)) :
    WritesWhole view cancellations o allowed ((o.writeFile name content).run.bind next)
  | aside {action : Action} (kind : action.isAside = true) (answer : action.Answer)
    (known : ∀ other, view.Answers cancellations action other → other = answer)
    {next : action.Answer → Program α}
    (later : WritesWhole view cancellations o allowed (next answer)) :
    WritesWhole view cancellations o allowed (.ask action next)

namespace Program.WritesWhole

variable {allowed : String → Prop} {p : Program α}

/-- A program that writes whole files comes to something by itself. -/
theorem comesTo (h : p.WritesWhole view cancellations o allowed) :
    ∃ result final, p.ComesTo view cancellations o
      (fun path => ∃ name, allowed name ∧ path = o.place name) result final := by
  suffices settles : ∀ own taken, ∃ result final, Settles view cancellations o
      (fun path => ∃ name, allowed name ∧ path = o.place name)
      (fun a f _ => a = result ∧ f.contents = final) p own taken by
    obtain ⟨result, final, h⟩ := settles .empty []
    exact ⟨result, final, ⟨h⟩⟩
  intro own taken
  induction h generalizing own taken with
  | done a => exact ⟨a, own.contents, rfl, rfl⟩
  | writeFile name content use _ ih =>
    obtain ⟨result, final, rest⟩ := ih _ _ _
    refine ⟨result, final, (settles_writeFile content ⟨name, use, rfl⟩).bind ?_⟩
    rintro _ _ _ ⟨rfl, rfl, rfl⟩
    exact rest
  | aside kind answer known _ ih =>
    obtain ⟨result, final, rest⟩ := ih own taken
    refine ⟨result, final, (settles_aside kind).mpr fun other possible => ?_⟩
    rw [known other possible]
    exact rest

theorem bind {β : Type} {q : Program β} {k : β → Program α}
    (h : q.WritesWhole view cancellations o allowed)
    (later : ∀ b, (k b).WritesWhole view cancellations o allowed) :
    (q.bind k).WritesWhole view cancellations o allowed := by
  induction h with
  | done b => exact later b
  | writeFile name content use _ ih =>
    rw [Program.bind_assoc]
    exact .writeFile name content use ih
  | aside kind answer known _ ih => exact .aside kind answer known ih

end Program.WritesWhole

/-! ## Generators that write whole files -/

/-- A generator writes a whole file as an output does, and says the error in its own way. -/
theorem settles_work_writeFile (content : Bytes) (place : places (o.place name)) :
    Settles view cancellations o places
      (fun result f _ =>
        result = ((view.writing o name content taken).1.mapError .output).mapError .failed ∧
        f = ((view.writing o name content taken).2.elim own (own.put (o.place name))))
      (Work.writeFile o name content).run own taken := by
  have work : (Work.writeFile o name content).run = (o.writeFile name content).run.bind
      fun result => .done ((result.mapError .output).mapError .failed) :=
    Program.bind_assoc _ _ _
  rw [work]
  refine (settles_writeFile content place).bind ?_
  rintro _ _ _ ⟨rfl, left, -⟩
  exact ⟨rfl, left⟩

theorem writeFile_comesTo (content : Bytes) (place : places (o.place name)) :
    (Work.writeFile o name content).run.ComesTo view cancellations o places
      (((view.writing o name content []).1.mapError .output).mapError .failed)
      ((view.writing o name content []).2.elim .empty (FileState.empty.put (o.place name))).contents :=
  ⟨(settles_work_writeFile content place).mono fun ⟨ended, left⟩ => ⟨ended, by rw [left]⟩⟩

theorem writesWhole_writeFile {allowed : String → Prop} (name : String) (content : Bytes)
    (use : allowed name) :
    (Work.writeFile o name content).run.WritesWhole view cancellations o allowed := by
  have written : (o.writeFile name content).run.WritesWhole view cancellations o allowed := by
    have program : ((o.writeFile name content).run.bind .done).WritesWhole view cancellations o
      allowed := .writeFile name content use .done
    rwa [Program.bind_done] at program
  exact (written.bind fun _ => .done _).bind fun _ => .done _

/-- The file that a sample generator writes for a document, if it writes one. -/
def Behaviour.file (doc : Document) : Behaviour → String
  | .options => doc.name ++ ".json"
  | .name file => file
  | _ => doc.name ++ ".txt"

theorem Behaviour.generator_writesWhole {b : Behaviour} (keeps : b ≠ .cancel) (name : String)
    (a : Assignment) :
    (b.generator name a).run.WritesWhole view cancellations a.output
      (· = b.file a.document) := by
  suffices h : (b.generate name a).run.WritesWhole view cancellations a.output
      (· = b.file a.document) from h.bind fun _ => .done _
  cases b with
  | write | options | name => exact writesWhole_writeFile _ _ rfl
  | fail | panic => exact .done _
  | failOn document =>
    simp only [generate]
    split
    · exact .done _
    · exact writesWhole_writeFile _ _ rfl
  | panicOn document =>
    simp only [generate]
    split
    · exact .done _
    · exact writesWhole_writeFile _ _ rfl
  | cancel => exact absurd rfl keeps

/-- The page generator writes one whole file while nothing is cancelled. -/
theorem Pages.generator_writesWhole (a : Assignment)
    (uncancelled : ∀ s, view.Valid s → a.cancel.isDone cancellations (host.now s).1 = false) :
    (generator a).run.WritesWhole view cancellations a.output fun name =>
      ∃ options, PageOptions.ofMembers a.options = .ok options ∧
        name = Page.fileName a.document.name options := by
  suffices h : (generate a).run.WritesWhole view cancellations a.output _ from
    h.bind fun _ => .done _
  unfold generate
  cases PageOptions.ofMembers a.options with
  | error fault => exact .done _
  | ok options =>
    simp only [pure_bind]
    refine .aside rfl false ?_ ?_
    · rintro done ⟨r, s, calm, valid, answered⟩
      rw [← answered, Run.perform_isDone, calm.cancellations]
      exact uncancelled s valid
    · refine .aside rfl () (fun _ _ => rfl) ?_
      exact writesWhole_writeFile _ _ ⟨options, rfl, rfl⟩

end SchemaCompiler
