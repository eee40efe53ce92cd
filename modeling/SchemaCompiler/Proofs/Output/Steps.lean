import SchemaCompiler.Output

/-!
What an output and its files ask for, action after action.
-/

namespace SchemaCompiler

variable {o : Output}

/-! ## Opening files -/

namespace Output

/-- A refused name is refused without any action. -/
theorem run_openFile_of_fault {name : String} {fault : FileName.Fault}
    (h : FileName.fault? name = some fault) :
    (o.openFile name).run = .done (.error (.invalidName name fault)) := by
  unfold openFile
  rw [h]
  rfl

/-- Opening a file, action by action. -/
theorem run_openFile {name : String} (accepted : FileName.fault? name = none) :
    (o.openFile name).run =
      .ask (.prepare o.id) fun
        | .error e => .done (.error (.io o.directory e))
        | .ok () => (o.makeParent name).run.bind fun
          | .error e => .done (.error e)
          | .ok () => .ask (.claim o.id name) fun
            | false => .done (.error (.duplicate name))
            | true => .ask (.create (o.place name)) fun
              | .error e => .done (.error (.io (o.place name) e))
              | .ok handle => .done (.ok ⟨o.place name, handle⟩) := by
  unfold openFile
  rw [accepted]
  refine congrArg (Program.ask (.prepare o.id)) (funext fun answer => ?_)
  obtain e | ⟨⟩ := answer
  · rfl
  refine congrArg (Program.bind (o.makeParent name).run) (funext fun answer => ?_)
  obtain e | ⟨⟩ := answer
  · rfl
  refine congrArg (Program.ask (.claim o.id name)) (funext fun answer => ?_)
  cases answer
  · rfl
  refine congrArg (Program.ask (.create (o.place name))) (funext fun answer => ?_)
  cases answer <;> rfl

theorem run_makeParent_flat {name : String} (flat : name.toList.contains '/' = false) :
    (o.makeParent name).run = .done (.ok ()) := by
  unfold makeParent
  rw [flat]
  rfl

theorem run_makeParent_nested {name : String} {parent : Path} (nested : name.toList.contains '/' = true)
    (here : (o.place name).parent? = some parent) :
    (o.makeParent name).run = .ask (.makeDirectories parent) fun
      | .error e => .done (.error (.io parent e))
      | .ok () => .done (.ok ()) := by
  unfold makeParent
  rw [nested, here]
  refine congrArg (Program.ask (.makeDirectories parent)) (funext fun answer => ?_)
  obtain e | ⟨⟩ := answer <;> rfl

end Output

/-! ## Using files -/

namespace OutputFile

variable (file : OutputFile)

theorem run_write (data : Bytes) :
    (file.write data).run =
      if data.isEmpty then .done (.ok ()) else .ask (.write file.handle data) .done := by
  unfold write
  split <;> rfl

/-- Closing a file flushes it, and drops it whatever came of that. -/
theorem run_close :
    file.close.run = .ask (.flush file.handle) fun flushed =>
      .ask (.drop file.handle) fun _ => .done (flushed.mapError (.io file.path)) := by
  refine congrArg (Program.ask (.flush file.handle)) (funext fun answer => ?_)
  refine congrArg (Program.ask (.drop file.handle)) (funext fun _ => ?_)
  obtain e | ⟨⟩ := answer <;> rfl

end OutputFile

/-! ## Writing whole files -/

theorem Output.run_writeFile (name : String) (content : Bytes) :
    (o.writeFile name content).run =
      (o.openFile name).run.bind fun
        | .error e => .done (.error e)
        | .ok file => (file.write content).run.bind fun
          | .ok () => file.close.run
          | .error e => file.drop.bind fun _ => .done (.error (.io file.path e)) := by
  refine congrArg (Program.bind (o.openFile name).run) (funext fun answer => ?_)
  obtain e | file := answer
  · rfl
  refine (ExceptT.run_bind_lift (file.write content).run _).trans ?_
  refine congrArg (Program.bind (file.write content).run) (funext fun answer => ?_)
  obtain e | ⟨⟩ := answer
  · exact ExceptT.run_bind_lift file.drop _
  · rfl

end SchemaCompiler
