import Mathlib.Tactic.Set
import SchemaCompiler.Proofs.FileSystem.View
import SchemaCompiler.Proofs.Program.Interleaving

/-!
Writing whole files where the file system refuses nothing: a name that is free is taken and its file
holds what was written; a name that is taken is refused.
-/

namespace SchemaCompiler

variable {σ : Type} {host : Host (StateM σ)} {view : Host.View host} {o : Output} {name : String}
  {r : Run} {s : σ} {record : OutputRecord}

/-- The record of an output after a name was opened. -/
def OutputRecord.taking (record : OutputRecord) (name : String) : OutputRecord :=
  { record with prepared := true, claimed := name :: record.claimed }

section

variable (accepting : ∀ operation path, view.verdict operation path = .ok ())
include accepting

/-- Preparing an output is not refused. -/
theorem perform_prepare_accepting (valid : view.Valid s)
    (here : r.outputs[o.id]? = some record) :
    ∃ s', Run.perform host (.prepare o.id) r s =
        ((.ok (), r.setOutput o.id { record with prepared := true }), s') ∧
      view.Valid s' ∧ view.files s' = view.files s := by
  obtain ⟨s', h, rest⟩ := view.perform_prepare valid here fun _ => accepting _ _
  rw [accepting] at h
  exact ⟨s', h, rest⟩

theorem execute_makeParent_accepting (name : String) (valid : view.Valid s) :
    ∃ s', Run.execute host (o.makeParent name).run r s = ((.ok (), r), s') ∧
      view.Valid s' ∧ view.files s' = view.files s := by
  cases nested : name.toList.contains '/' with
  | false =>
    rw [Output.run_makeParent_flat nested]
    exact ⟨s, rfl, valid, rfl⟩
  | true =>
    rcases here : (o.place name).parent? with - | parent
    · unfold Output.makeParent
      rw [nested, here]
      exact ⟨s, rfl, valid, rfl⟩
    · rw [Output.run_makeParent_nested nested here]
      obtain ⟨answered, rest⟩ := view.makeDirectories_ends parent s valid
      rw [accepting] at answered
      refine ⟨(host.files.makeDirectories parent s).2, ?_, rest⟩
      have made : Run.perform host (.makeDirectories parent) r s =
          ((.ok (), r), (host.files.makeDirectories parent s).2) := by
        rw [← answered]
        rfl
      rw [Run.execute_ask _ made]
      rfl

/-- Opening a name comes to claiming it. -/
theorem execute_openFile_accepting (accepted : FileName.fault? name = none) (valid : view.Valid s)
    (here : r.outputs[o.id]? = some record) :
    ∃ s', view.Valid s' ∧ view.files s' = view.files s ∧
      Run.execute host (o.openFile name).run r s =
        Run.execute host (.ask (.claim o.id name) fun
          | false => .done (.error (.duplicate name))
          | true => .ask (.create (o.place name)) fun
            | .error e => .done (.error (.io (o.place name) e))
            | .ok handle => .done (.ok ⟨o.place name, handle⟩))
          (r.setOutput o.id { record with prepared := true }) s' := by
  rw [Output.run_openFile accepted]
  obtain ⟨s₁, prepared, valid₁, files₁⟩ := perform_prepare_accepting accepting valid here
  obtain ⟨s₂, parent, valid₂, files₂⟩ := execute_makeParent_accepting accepting (o := o)
    (r := r.setOutput o.id { record with prepared := true }) name valid₁
  refine ⟨s₂, valid₂, files₂.trans files₁, ?_⟩
  rw [Run.execute_ask _ prepared]
  exact Run.execute_bind _ _ parent

/-- A taken name is refused, and the files stay as they are. -/
theorem execute_writeFile_taken (accepted : FileName.fault? name = none) (content : Bytes)
    (valid : view.Valid s) (here : r.outputs[o.id]? = some record) (taken : name ∈ record.claimed) :
    ∃ r' s', Run.execute host (o.writeFile name content).run r s =
        ((.error (.duplicate name), r'), s') ∧
      view.Valid s' ∧ view.files s' = view.files s := by
  obtain ⟨s₁, valid₁, files₁, opened⟩ := execute_openFile_accepting accepting accepted valid here
  set r₁ := r.setOutput o.id { record with prepared := true }
  have here₁ : r₁.outputs[o.id]? = some { record with prepared := true } := by
    simp [r₁, (List.getElem?_eq_some_iff.mp here).1]
  have refused : Run.perform host (.claim o.id name) r₁ s₁ = ((false, r₁), s₁) := by
    rw [Run.perform_claim, here₁]
    simp [taken]
  rw [Run.execute_ask _ refused] at opened
  rw [Output.run_writeFile, Run.execute_bind _ _ opened]
  exact ⟨r₁, s₁, rfl, valid₁, files₁⟩

/-- What is written to an open file is in the file once it is closed. -/
theorem execute_writing_accepting (file : OutputFile) (content : Bytes) (valid : view.Valid s)
    (opened : (view.files s).desk file.handle = some (file.path, [])) :
    ∃ s', Run.execute host ((file.write content).run.bind fun
          | .ok () => file.close.run
          | .error e => file.drop.bind fun _ => .done (.error (.io file.path e))) r s =
        ((.ok (), r), s') ∧ view.Valid s' ∧
      view.files s' = ((view.files s).put file.path content).hold file.handle none := by
  have written : ∃ s₁, Run.execute host (file.write content).run r s = ((.ok (), r), s₁) ∧
      view.Valid s₁ ∧ view.files s₁ =
        (view.files s).hold file.handle (some (file.path, content)) := by
    rw [OutputFile.run_write]
    split
    · rename_i nothing
      rw [List.isEmpty_iff.mp nothing, FileState.hold, ← opened, Function.update_eq_self]
      exact ⟨s, rfl, valid, rfl⟩
    · obtain ⟨answered, valid₁, files₁⟩ := view.write_ends file.handle content s _ _ valid opened
      rw [accepting] at answered files₁
      refine ⟨(host.files.write file.handle content s).2, ?_, valid₁, files₁⟩
      rw [← answered]
      rfl
  obtain ⟨s₁, h₁, valid₁, files₁⟩ := written
  have held : (view.files s₁).desk file.handle = some (file.path, content) := by
    simp [files₁]
  obtain ⟨flushed, valid₂, files₂⟩ := view.flush_ends file.handle s₁ _ _ valid₁ held
  rw [accepting] at flushed files₂
  set s₂ := (host.files.flush file.handle s₁).2
  have held₂ : (view.files s₂).desk file.handle = some (file.path, content) := by
    rw [files₂]
    exact held
  obtain ⟨-, valid₃, files₃⟩ := view.drop_ends file.handle s₂ _ _ valid₂ held₂
  have flush : Run.perform host (.flush file.handle) r s₁ = ((.ok (), r), s₂) := by
    rw [← flushed]
    rfl
  have drop : Run.perform host (.drop file.handle) r s₂ =
      (((), r), (host.files.drop file.handle s₂).2) := rfl
  refine ⟨_, ?_, valid₃, ?_⟩
  · rw [Run.execute_bind _ _ h₁]
    simp only [OutputFile.run_close]
    rw [Run.execute_ask _ flush, Run.execute_ask _ drop]
    rfl
  · rw [files₃, files₂, files₁]
    simp only [FileState.unlessRefused, FileState.hold_put, FileState.put_put, FileState.hold_hold]

/-- A free name is taken, and its file holds what was written. -/
theorem execute_writeFile_free (accepted : FileName.fault? name = none) (content : Bytes)
    (valid : view.Valid s) (here : r.outputs[o.id]? = some record) (free : name ∉ record.claimed) :
    ∃ r' s', Run.execute host (o.writeFile name content).run r s = ((.ok (), r'), s') ∧
      r'.outputs[o.id]? = some (record.taking name) ∧ view.Valid s' ∧
      view.files s' = (view.files s).put (o.place name) content := by
  obtain ⟨s₁, valid₁, files₁, opened⟩ := execute_openFile_accepting accepting accepted valid here
  set r₁ := r.setOutput o.id { record with prepared := true }
  have inside := (List.getElem?_eq_some_iff.mp here).1
  have here₁ : r₁.outputs[o.id]? = some { record with prepared := true } := by
    simp [r₁, inside]
  have taken : Run.perform host (.claim o.id name) r₁ s₁ =
      ((true, r₁.setOutput o.id (record.taking name)), s₁) := by
    rw [Run.perform_claim, here₁]
    simp [free, OutputRecord.taking]
  obtain ⟨handle, unused, answered, valid₂, files₂⟩ :=
    view.create_ends (o.place name) s₁ valid₁ (accepting _ _)
  set s₂ := (host.files.create (o.place name) s₁).2
  have created (r : Run) : Run.perform host (.create (o.place name)) r s₁ =
      ((.ok handle, r), s₂) := by
    rw [← answered]
    rfl
  rw [Run.execute_ask _ taken, Run.execute_ask _ (created _)] at opened
  obtain ⟨s₃, written, valid₃, files₃⟩ := execute_writing_accepting accepting
    (r := r₁.setOutput o.id (record.taking name)) ⟨o.place name, handle⟩ content valid₂
    (by simp [files₂])
  refine ⟨r₁.setOutput o.id (record.taking name), s₃, ?_, ?_, valid₃, ?_⟩
  · rw [Output.run_writeFile, Run.execute_bind _ _ opened]
    exact written
  · simp [r₁, inside]
  · rw [files₃, files₂, files₁]
    simp only [FileState.hold_put, FileState.put_put, FileState.hold_hold]
    exact FileState.hold_none _ (by rw [FileState.put_desk, ← files₁]; exact unused)

end

end SchemaCompiler
