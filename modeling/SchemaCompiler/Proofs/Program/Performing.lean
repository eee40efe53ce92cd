import SchemaCompiler.Run

/-!
What the actions of a run do that read or change what the run keeps track of: its outputs, its
cancellations and the executables looked for.
-/

namespace SchemaCompiler.Run

variable {σ α : Type} {host : Host (StateM σ)}

theorem modify_if (b : Bool) (change : Run → Run) (a : α) (r : Run) (s : σ) :
    (do if b then modify change
        return a : StateT Run (StateM σ) α) r s =
      ((a, if b then change r else r), s) := by
  cases b <;> rfl

/-! ## Outputs -/

theorem perform_prepare (id : Nat) (r : Run) (s : σ) :
    perform host (.prepare id) r s =
      match r.outputs[id]? with
      | none => ((.ok (), r), s)
      | some record =>
        if record.prepared then ((.ok (), r), s)
        else
          let made := host.files.makeDirectories record.directory s
          ((made.1,
            if made.1.toBool then r.setOutput id { record with prepared := true } else r),
            made.2) := by
  change (match r.outputs[id]? with
    | none => pure (.ok ())
    | some record =>
      if record.prepared then pure (.ok ())
      else do
        let result ← host.files.makeDirectories record.directory
        if result.toBool then modify (·.setOutput id { record with prepared := true })
        return result : StateT Run (StateM σ) (Except IoError Unit)) r s = _
  cases r.outputs[id]? with
  | none => rfl
  | some record =>
    simp only
    split
    · rfl
    · exact modify_if _ _ _ r _

theorem perform_claim (id : Nat) (name : String) (r : Run) (s : σ) :
    perform host (.claim id name) r s =
      match r.outputs[id]? with
      | none => ((false, r), s)
      | some record =>
        if record.claimed.contains name then ((false, r), s)
        else ((true, r.setOutput id { record with claimed := name :: record.claimed }), s) := by
  change (match r.outputs[id]? with
    | none => pure false
    | some record =>
      if record.claimed.contains name then pure false
      else do
        modify (·.setOutput id { record with claimed := name :: record.claimed })
        return true : StateT Run (StateM σ) Bool) r s = _
  cases r.outputs[id]? with
  | none => rfl
  | some record =>
    simp only
    split <;> rfl

@[simp] theorem setOutput_outputs (r : Run) (id : Nat) (record : OutputRecord) :
    (r.setOutput id record).outputs = r.outputs.set id record := rfl

@[simp] theorem setOutput_cancellations (r : Run) (id : Nat) (record : OutputRecord) :
    (r.setOutput id record).cancellations = r.cancellations := rfl

@[simp] theorem setOutput_located (r : Run) (id : Nat) (record : OutputRecord) :
    (r.setOutput id record).located = r.located := rfl

/-! ## Executables, the log, and cancellation -/

theorem perform_locate (executable : String) (r : Run) (s : σ) :
    perform host (.locate executable) r s =
      match r.located.lookup executable with
      | some result => ((result, r), s)
      | none =>
        let found := host.locate executable s
        ((found.1, { r with located := (executable, found.1) :: r.located }), found.2) := by
  change (match r.located.lookup executable with
    | some result => pure result
    | none => do
      let result ← host.locate executable
      modify fun r => { r with located := (executable, result) :: r.located }
      return result : StateT Run (StateM σ) (Except String Path)) r s = _
  cases r.located.lookup executable <;> rfl

theorem perform_log (event : Event) (r : Run) (s : σ) :
    perform host (.log event) r s =
      (((), r), if r.logging then (host.log event s).2 else s) := by
  change (if r.logging then host.log event else pure () : StateT Run (StateM σ) Unit) r s = _
  cases r.logging <;> rfl

theorem perform_isDone (context : CancelContext) (r : Run) (s : σ) :
    perform host (.isDone context) r s =
      ((context.isDone r.cancellations (host.now s).1, r), (host.now s).2) := rfl

theorem perform_run (executable : Path) (input : Bytes) (limit : CancelContext) (r : Run) (s : σ) :
    perform host (.run executable input limit) r s =
      if limit.isCancelled r.cancellations then ((.stopped, r), s)
      else
        let ended := host.run executable input limit.deadline s
        ((ended.1, r), ended.2) := by
  change (if limit.isCancelled r.cancellations then pure .stopped
    else host.run executable input limit.deadline : StateT Run (StateM σ) Ending) r s = _
  split <;> rfl

end SchemaCompiler.Run
