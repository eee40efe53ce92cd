import Mathlib.Logic.Function.Basic
import SchemaCompiler.FileSystem.Memory
import SchemaCompiler.Proofs.Output.Discipline
import SchemaCompiler.Proofs.Program.Interleaving
import SchemaCompiler.Proofs.Program.Performing

/-!
Views of a host: the files that it holds and those that are open, with what its operations do to
them.

Whether an operation is refused is settled by the operation and the path. Operations that are not on
files, a process among them, leave the files alone.
-/

namespace SchemaCompiler

namespace Path

theorem same_refl (p : Path) : p.same p = true := beq_self_eq_true p.components

theorem same_comm (p q : Path) : p.same q = q.same p := Bool.beq_comm

theorem same_congr {p q : Path} (h : p.same q) (t : Path) : p.same t = q.same t := by
  rw [Path.same, beq_iff_eq] at h
  rw [Path.same, Path.same, h]

end Path

variable {σ α : Type}

/-- Files and open files. -/
@[ext]
structure FileState where
  contents : Path → Option Bytes
  /-- Open files, each with what was written to it. -/
  desk : Handle → Option (Path × Bytes)

namespace FileState

/-- A file has new contents. -/
def put (f : FileState) (path : Path) (data : Bytes) : FileState :=
  { f with contents := fun q => if q.same path then some data else f.contents q }

/-- A file is open, or no longer. -/
def hold (f : FileState) (handle : Handle) (file : Option (Path × Bytes)) : FileState :=
  { f with desk := Function.update f.desk handle file }

@[simp] theorem put_desk (f : FileState) (path : Path) (data : Bytes) :
    (f.put path data).desk = f.desk := rfl

@[simp] theorem hold_contents (f : FileState) (handle : Handle) (file : Option (Path × Bytes)) :
    (f.hold handle file).contents = f.contents := rfl

@[simp] theorem hold_desk (f : FileState) (handle : Handle) (file : Option (Path × Bytes)) :
    (f.hold handle file).desk = Function.update f.desk handle file := rfl

theorem put_contents (f : FileState) (path q : Path) (data : Bytes) :
    (f.put path data).contents q = if q.same path then some data else f.contents q := rfl

/-- What was put last at a place stays. -/
theorem put_put (f : FileState) (path : Path) (before data : Bytes) :
    (f.put path before).put path data = f.put path data := by
  refine FileState.ext (funext fun q => ?_) rfl
  simp only [put_contents]
  split <;> rfl

theorem hold_hold (f : FileState) (handle : Handle) (file file' : Option (Path × Bytes)) :
    (f.hold handle file).hold handle file' = f.hold handle file' := by
  simp [hold]

theorem hold_none (f : FileState) {handle : Handle} (free : f.desk handle = none) :
    f.hold handle none = f := by
  rw [hold, ← free, Function.update_eq_self]

theorem hold_put (f : FileState) (handle : Handle) (file : Option (Path × Bytes)) (path : Path)
    (data : Bytes) : (f.hold handle file).put path data = (f.put path data).hold handle file := rfl

/-- An operation that is not refused leads from `before` to `after`. -/
def unlessRefused (verdict : Except IoError Unit) (after before : FileState) : FileState :=
  match verdict with
  | .ok () => after
  | .error _ => before

end FileState

/-- Files as a host shows them in its valid states. -/
structure FileWindow (σ : Type) where
  Valid : σ → Prop
  files : σ → FileState

namespace FileWindow

/-- The operation answers and leaves the files in a state. -/
def Ends (w : FileWindow σ) (operation : StateM σ α) (s : σ) (answer : α) (after : FileState) :
    Prop :=
  (operation s).1 = answer ∧ w.Valid (operation s).2 ∧ w.files (operation s).2 = after

/-- The operation leaves the files alone. -/
def Spares (w : FileWindow σ) (operation : StateM σ α) : Prop :=
  ∀ s, w.Valid s → w.Valid (operation s).2 ∧ w.files (operation s).2 = w.files s

end FileWindow

/-- What the operations of a file system do to its files. -/
structure FileSystem.View (fs : FileSystem (StateM σ)) extends FileWindow σ where
  /-- Whether an operation on a path is refused. -/
  verdict : FileOperation → Path → Except IoError Unit
  makeDirectories_ends : ∀ path s, Valid s →
    toFileWindow.Ends (fs.makeDirectories path) s (verdict .makeDirectories path) (files s)
  create_refused : ∀ path s e, Valid s → verdict .create path = .error e →
    toFileWindow.Ends (fs.create path) s (.error e) (files s)
  create_ends : ∀ path s, Valid s → verdict .create path = .ok () →
    ∃ handle, (files s).desk handle = none ∧
      toFileWindow.Ends (fs.create path) s (.ok handle)
        (((files s).put path []).hold handle (some (path, [])))
  write_ends : ∀ handle data s path before, Valid s →
    (files s).desk handle = some (path, before) →
      toFileWindow.Ends (fs.write handle data) s (verdict .write path)
        (.unlessRefused (verdict .write path)
          ((files s).hold handle (some (path, before ++ data))) (files s))
  flush_ends : ∀ handle s path data, Valid s → (files s).desk handle = some (path, data) →
    toFileWindow.Ends (fs.flush handle) s (verdict .flush path)
      (.unlessRefused (verdict .flush path) ((files s).put path data) (files s))
  drop_ends : ∀ handle s path data, Valid s → (files s).desk handle = some (path, data) →
    toFileWindow.Ends (fs.drop handle) s () (((files s).put path data).hold handle none)
  read_answer : ∀ path s t, Valid s → Valid t → (files s).contents = (files t).contents →
    (fs.read path s).1 = (fs.read path t).1
  isFile_answer : ∀ path s t, Valid s → Valid t → (files s).contents = (files t).contents →
    (fs.isFile path s).1 = (fs.isFile path t).1
  read_spares : ∀ path, toFileWindow.Spares (fs.read path)
  isFile_spares : ∀ path, toFileWindow.Spares (fs.isFile path)

/-- A view of the files of a host, which nothing else that the host does changes. -/
structure Host.View (host : Host (StateM σ)) extends FileSystem.View host.files where
  now_spares : toFileWindow.Spares host.now
  log_spares : ∀ event, toFileWindow.Spares (host.log event)
  locate_spares : ∀ executable, toFileWindow.Spares (host.locate executable)
  run_spares : ∀ path input deadline, toFileWindow.Spares (host.run path input deadline)

namespace Host.View

variable {host : Host (StateM σ)} (view : Host.View host)

/-- The run has the given cancellations, and what it remembers of executables was found. -/
structure Calm (cancellations : Cancellations) (r : Run) : Prop where
  cancellations : r.cancellations = cancellations
  located : ∀ found ∈ r.located, ∃ s, view.Valid s ∧ (host.locate found.1 s).1 = found.2

/-- The answers that an action can have at all with the given cancellations. -/
def Answers (cancellations : Cancellations) (action : Action) (answer : action.Answer) : Prop :=
  ∃ r s, view.Calm cancellations r ∧ view.Valid s ∧ (Run.perform host action r s).1.1 = answer

variable {view} {cancellations : Cancellations} {r r' : Run} {s s' : σ}

theorem Calm.of_setOutput (calm : view.Calm cancellations r) (id : Nat) (record : OutputRecord) :
    view.Calm cancellations (r.setOutput id record) :=
  ⟨calm.cancellations, calm.located⟩

/-- Asking something of the surroundings leaves the files and the outputs alone. -/
theorem perform_aside {action : Action} {answer : action.Answer} (aside : action.isAside = true)
    (valid : view.Valid s) (h : Run.perform host action r s = ((answer, r'), s')) :
    r'.outputs = r.outputs ∧ view.Valid s' ∧ view.files s' = view.files s := by
  cases action with
  | read path =>
    cases h
    exact ⟨rfl, view.read_spares path s valid⟩
  | isFile path =>
    cases h
    exact ⟨rfl, view.isFile_spares path s valid⟩
  | isDone context | withTimeout context timeout =>
    cases h
    exact ⟨rfl, view.now_spares s valid⟩
  | log event =>
    rw [Run.perform_log] at h
    cases h
    cases r.logging
    · exact ⟨rfl, valid, rfl⟩
    · exact ⟨rfl, view.log_spares event s valid⟩
  | call entry document =>
    cases h
    exact ⟨rfl, valid, rfl⟩
  | locate executable =>
    rw [Run.perform_locate] at h
    split at h <;> cases h
    · exact ⟨rfl, valid, rfl⟩
    · exact ⟨rfl, view.locate_spares executable s valid⟩
  | run executable input limit =>
    rw [Run.perform_run] at h
    split at h <;> cases h
    · exact ⟨rfl, valid, rfl⟩
    · exact ⟨rfl, view.run_spares _ _ _ s valid⟩
  | makeDirectories | create | write | flush | drop | newOutput | prepare | claim | cancel =>
    cases aside

/-- A program that only asks leaves the files and the outputs alone. -/
theorem execute_asks {p : Program α} (asks : Program.Asks p) {a : α} (valid : view.Valid s)
    (h : Run.execute host p r s = ((a, r'), s')) :
    r'.outputs = r.outputs ∧ view.Valid s' ∧ view.files s' = view.files s := by
  induction asks generalizing r s with
  | done b =>
    cases h
    exact ⟨rfl, valid, rfl⟩
  | @ask action aside next _ ih =>
    rcases hperform : Run.perform host action r s with ⟨⟨answer, r₁⟩, s₁⟩
    obtain ⟨outputs, valid₁, files⟩ := perform_aside aside valid hperform
    obtain ⟨outputs', valid', files'⟩ := ih answer valid₁ (Run.execute_ask next hperform ▸ h)
    exact ⟨outputs'.trans outputs, valid', files'.trans files⟩

/-- Asking something cancels nothing, and what is remembered of executables was found. -/
theorem Calm.aside (calm : view.Calm cancellations r) {action : Action} {answer : action.Answer}
    (aside : action.isAside = true) (valid : view.Valid s)
    (h : Run.perform host action r s = ((answer, r'), s')) : view.Calm cancellations r' := by
  cases action with
  | read | isFile | isDone | withTimeout | call =>
    cases h
    exact ⟨calm.cancellations, calm.located⟩
  | log event =>
    rw [Run.perform_log] at h
    cases h
    exact calm
  | locate executable =>
    rw [Run.perform_locate] at h
    split at h <;> cases h
    · exact calm
    · refine ⟨calm.cancellations, fun found member => ?_⟩
      rcases List.mem_cons.mp member with rfl | before
      · exact ⟨s, valid, rfl⟩
      · exact calm.located found before
  | run executable input limit =>
    rw [Run.perform_run] at h
    split at h <;> cases h <;> exact calm
  | makeDirectories | create | write | flush | drop | newOutput | prepare | claim | cancel =>
    cases aside

theorem Calm.asks (calm : view.Calm cancellations r) {p : Program α} (asks : Program.Asks p) {a : α}
    (valid : view.Valid s) (h : Run.execute host p r s = ((a, r'), s')) :
    view.Calm cancellations r' := by
  induction asks generalizing r s with
  | done b =>
    cases h
    exact calm
  | @ask action aside next _ ih =>
    rcases hperform : Run.perform host action r s with ⟨⟨answer, r₁⟩, s₁⟩
    obtain ⟨-, valid₁, -⟩ := perform_aside aside valid hperform
    exact ih answer (calm.aside aside valid hperform) valid₁ (Run.execute_ask next hperform ▸ h)

/-- What a program that only looks at files comes to depends on the files alone. -/
theorem execute_looks {p : Program α} (looks : Program.Looks p) {r₁ r₁' r₂ r₂' : Run}
    {s₁ s₁' s₂ s₂' : σ} {a b : α} (valid₁ : view.Valid s₁) (valid₂ : view.Valid s₂)
    (same : (view.files s₁).contents = (view.files s₂).contents)
    (h₁ : Run.execute host p r₁ s₁ = ((a, r₁'), s₁'))
    (h₂ : Run.execute host p r₂ s₂ = ((b, r₂'), s₂')) : a = b := by
  induction looks generalizing r₁ r₂ s₁ s₂ with
  | done c =>
    cases h₁
    cases h₂
    rfl
  | @ask action look next _ ih =>
    rcases hperform₁ : Run.perform host action r₁ s₁ with ⟨⟨answer₁, r₃⟩, s₃⟩
    rcases hperform₂ : Run.perform host action r₂ s₂ with ⟨⟨answer₂, r₄⟩, s₄⟩
    have aside := Action.isAside_of_isLook look
    obtain ⟨-, valid₃, files₃⟩ := perform_aside aside valid₁ hperform₁
    obtain ⟨-, valid₄, files₄⟩ := perform_aside aside valid₂ hperform₂
    rw [Run.execute_ask next hperform₁] at h₁
    rw [Run.execute_ask next hperform₂] at h₂
    have answers : answer₁ = answer₂ := by
      cases action with
      | read path =>
        cases hperform₁
        cases hperform₂
        exact view.read_answer path s₁ s₂ valid₁ valid₂ same
      | isFile path =>
        cases hperform₁
        cases hperform₂
        exact view.isFile_answer path s₁ s₂ valid₁ valid₂ same
      | log event => rfl
      | _ => cases look
    subst answers
    exact ih answer₁ valid₃ valid₄ (by rw [files₃, files₄, same]) h₁ h₂

/-- The directory of an output counts as made once making it is not refused. -/
theorem perform_prepare {id : Nat} {record : OutputRecord} (valid : view.Valid s)
    (here : r.outputs[id]? = some record)
    (known : record.prepared = true → view.verdict .makeDirectories record.directory = .ok ()) :
    ∃ s', Run.perform host (.prepare id) r s =
        ((view.verdict .makeDirectories record.directory, r.setOutput id
          { record with
            prepared := (view.verdict .makeDirectories record.directory).toBool }), s') ∧
      view.Valid s' ∧ view.files s' = view.files s := by
  obtain ⟨inside, same⟩ := List.getElem?_eq_some_iff.mp here
  have kept : r.setOutput id record = r := by
    rw [Run.setOutput, ← same, List.set_getElem_self]
  rw [Run.perform_prepare, here]
  cases done : record.prepared with
  | true =>
    refine ⟨s, ?_, valid, rfl⟩
    have unchanged : { record with prepared := true } = record := by rw [← done]
    simp only [known done, done, if_true]
    rw [show (Except.ok () : Except IoError Unit).toBool = true from rfl, unchanged, kept]
  | false =>
    obtain ⟨answered, valid', files⟩ := view.makeDirectories_ends record.directory s valid
    refine ⟨_, ?_, valid', files⟩
    simp only [done, Bool.false_eq_true, if_false, answered]
    cases view.verdict .makeDirectories record.directory with
    | ok => rfl
    | error e =>
      have unchanged : { record with prepared := false } = record := by rw [← done]
      rw [show (Except.error e : Except IoError Unit).toBool = false from rfl, unchanged, kept]
      rfl

end Host.View

end SchemaCompiler
