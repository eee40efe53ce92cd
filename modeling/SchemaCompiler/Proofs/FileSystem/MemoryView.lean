import SchemaCompiler.Proofs.FileSystem.View
import SchemaCompiler.Sandbox

/-!
Files in memory have a view: what was put at a place is found there, whatever the spelling of the
place, and a file that is open gathers what is written to it.
-/

namespace SchemaCompiler

/-! ## The order of places -/

namespace Path

theorem component_compare_eq {a b : Component} : a.compare b = .eq ↔ a = b := by
  cases a <;> cases b <;> simp [Component.compare, Component.compare.rank]

theorem compareComponents_eq {as bs : List Component} :
    compareComponents as bs = .eq ↔ as = bs := by
  induction as generalizing bs with
  | nil => cases bs <;> simp [compareComponents]
  | cons a as ih =>
    cases bs with
    | nil => simp [compareComponents]
    | cons b bs => simp [compareComponents, component_compare_eq, ih]

theorem compare_eq {p q : Path} : p.compare q = .eq ↔ p.same q := by
  rw [Path.compare, compareComponents_eq, Path.same, beq_iff_eq]

end Path

namespace Memory

theorem find?_insertFile (path q : Path) (data : Bytes) (files : List (Path × Bytes)) :
    ((insertFile path data files).find? fun file => file.1.same q).map (·.2) =
      if path.same q then some data else (files.find? fun file => file.1.same q).map (·.2) := by
  induction files with
  | nil => cases h : path.same q <;> simp [insertFile, h]
  | cons file files ih =>
    cases order : path.compare file.1 with
    | lt => cases h : path.same q <;> simp [insertFile, order, h]
    | eq =>
      have key := Path.same_congr (Path.compare_eq.mp order) q
      cases h : file.1.same q <;> simp [insertFile, order, key, h]
    | gt =>
      have apart : path.same file.1 = false := by
        rw [Bool.eq_false_iff, ne_eq, ← Path.compare_eq, order]
        exact nofun
      cases h : path.same q with
      | false => cases h' : file.1.same q <;> simp [insertFile, order, h, h', ih]
      | true =>
        have other : file.1.same q = false := by
          refine Bool.eq_false_iff.mpr fun also => Bool.eq_false_iff.mp apart ?_
          simp only [Path.same, beq_iff_eq] at h also ⊢
          exact h.trans also.symm
        simp [insertFile, order, h, other, ih]

theorem get?_put (m : Memory) (path q : Path) (data : Bytes) :
    (m.put path data).get? q = if q.same path then some data else m.get? q := by
  rw [Path.same_comm]
  exact find?_insertFile path q data m.files

end Memory

/-! ## Open files -/

namespace Writers

variable {π : Type}

/-- Handles are given out in order. -/
def Bounded (ws : Writers π) : Prop := ∀ w ∈ ws.writers, w.handle < ws.next

theorem get?_of_le {ws : Writers π} (h : ws.Bounded) {handle : Handle} (late : ws.next ≤ handle) :
    ws.get? handle = none := by
  refine List.find?_eq_none.mpr fun w member => ?_
  have less := Nat.lt_of_lt_of_le (h w member) late
  simp only [beq_iff_eq]
  exact Nat.ne_of_lt less

theorem get?_next {ws : Writers π} (h : ws.Bounded) : ws.get? ws.next = none :=
  get?_of_le h (Nat.le_refl _)

theorem get?_add (ws : Writers π) (place : π) :
    (ws.add place).2.get? = Function.update ws.get? ws.next (some ⟨ws.next, place, []⟩) := by
  funext handle
  by_cases same : handle = ws.next
  · subst same
    simp [add, get?]
  · simp [add, get?, same, Ne.symm same]

theorem get?_append (ws : Writers π) (handle other : Handle) (data : Bytes) :
    (ws.append handle data).get? other = (ws.get? other).map fun w =>
      if w.handle == handle then { w with data := w.data ++ data } else w := by
  rw [append, get?, get?, List.find?_map]
  congr 2
  funext w
  by_cases same : w.handle = handle <;> simp [same]

theorem get?_remove (ws : Writers π) (handle : Handle) :
    (ws.remove handle).get? = Function.update ws.get? handle none := by
  funext other
  rw [remove, get?, List.find?_filter]
  by_cases same : other = handle
  · subst same
    simp
  · rw [Function.update_of_ne same, get?]
    congr 1
    funext w
    by_cases here : w.handle = other <;> simp [here, same]

theorem handle_of_get? {ws : Writers π} {handle : Handle} {w : Writer π}
    (h : ws.get? handle = some w) : w.handle = handle := by
  simpa using List.find?_some h

namespace Bounded

variable {ws : Writers π}

theorem add (h : ws.Bounded) (place : π) : (ws.add place).2.Bounded := by
  intro w member
  rcases List.mem_cons.mp member with rfl | before
  · exact Nat.lt_succ_self _
  · exact Nat.lt_succ_of_lt (h w before)

theorem append (h : ws.Bounded) (handle : Handle) (data : Bytes) :
    (ws.append handle data).Bounded := by
  intro w member
  obtain ⟨before, kept, rfl⟩ := List.mem_map.mp member
  have less := h before kept
  split <;> exact less

theorem remove (h : ws.Bounded) (handle : Handle) : (ws.remove handle).Bounded :=
  fun w member => h w (List.mem_filter.mp member).1

end Bounded

end Writers

/-! ## The view -/

namespace Memory

/-- The files and the open files. -/
def fileState (m : Memory) : FileState :=
  ⟨m.get?, fun handle => (m.writers.get? handle).map fun w => (w.place, w.data)⟩

theorem fileState_put (m : Memory) (path : Path) (data : Bytes) :
    (m.put path data).fileState = m.fileState.put path data := by
  refine FileState.ext (funext fun q => ?_) rfl
  exact m.get?_put path q data

theorem fileState_add (m : Memory) (path : Path) :
    { m with writers := (m.writers.add path).2 : Memory }.fileState =
      m.fileState.hold m.writers.next (some (path, [])) := by
  refine FileState.ext rfl (funext fun handle => ?_)
  by_cases same : handle = m.writers.next <;>
    simp [fileState, Writers.get?_add, same]

theorem fileState_append (m : Memory) {handle : Handle} {path : Path} {before : Bytes}
    (here : m.fileState.desk handle = some (path, before)) (data : Bytes) :
    { m with writers := m.writers.append handle data : Memory }.fileState =
      m.fileState.hold handle (some (path, before ++ data)) := by
  refine FileState.ext rfl (funext fun other => ?_)
  obtain ⟨w, hw, file⟩ := Option.map_eq_some_iff.mp here
  cases file
  by_cases same : other = handle
  · subst same
    simp [fileState, Writers.get?_append, hw, Writers.handle_of_get? hw]
  · simp only [fileState, Writers.get?_append, FileState.hold_desk, Function.update_of_ne same,
      Option.map_map]
    cases found : m.writers.get? other with
    | none => rfl
    | some w' =>
      have different : w'.handle ≠ handle := Writers.handle_of_get? found ▸ same
      simp [different]

theorem fileState_remove (m : Memory) (handle : Handle) :
    { m with writers := m.writers.remove handle : Memory }.fileState =
      m.fileState.hold handle none := by
  refine FileState.ext rfl (funext fun other => ?_)
  by_cases same : other = handle <;>
    simp [fileState, Writers.get?_remove, same]

theorem writer_of_desk {m : Memory} {handle : Handle} {path : Path} {data : Bytes}
    (here : m.fileState.desk handle = some (path, data)) :
    ∃ w, m.writers.get? handle = some w ∧ w.place = path ∧ w.data = data := by
  obtain ⟨w, hw, file⟩ := Option.map_eq_some_iff.mp here
  cases file
  exact ⟨w, hw, rfl, rfl⟩

/-- The operation is made to fail, or it is not. -/
def verdict (failing : List (FileOperation × Path)) (operation : FileOperation) (path : Path) :
    Except IoError Unit :=
  if { empty with failing }.fails operation path then .error injected else .ok ()

theorem fails_eq_false {m : Memory} {operation : FileOperation} {path : Path}
    (h : verdict m.failing operation path = .ok ()) : m.fails operation path = false := by
  unfold verdict at h
  split at h
  · cases h
  · exact Bool.eq_false_iff.mpr ‹_›

theorem fails_eq_true {m : Memory} {operation : FileOperation} {path : Path} {e : IoError}
    (h : verdict m.failing operation path = .error e) :
    m.fails operation path = true ∧ e = injected := by
  unfold verdict at h
  split at h
  · exact ⟨‹_›, (Except.error.inj h).symm⟩
  · cases h

end Memory

namespace Sandbox

/-- Files in memory, where the operations that fail are given. -/
def memoryWindow (failing : List (FileOperation × Path)) : FileWindow Sandbox where
  Valid s := s.memory.failing = failing ∧ s.memory.writers.Bounded
  files s := s.memory.fileState

/-- The operation on the memory alone. -/
def onMemory {α : Type} (operation : StateM Memory α) : StateM Sandbox α :=
  fun s => ((operation s.memory).1, { s with memory := (operation s.memory).2 })

/-- An operation on files in memory ends as it does on the memory alone. -/
theorem ends_onMemory {α : Type} {operation : StateM Memory α} {s : Sandbox}
    {failing : List (FileOperation × Path)} {answer : α} {after : FileState} {memory : Memory}
    (ended : operation s.memory = (answer, memory)) (same : memory.failing = failing)
    (bounded : memory.writers.Bounded) (files : memory.fileState = after) :
    (memoryWindow failing).Ends (onMemory operation) s answer after := by
  unfold FileWindow.Ends onMemory
  rw [ended]
  exact ⟨rfl, ⟨same, bounded⟩, files⟩

/-- The view of files in memory. -/
def memoryFilesView (failing : List (FileOperation × Path)) : memoryFiles.View where
  toFileWindow := memoryWindow failing
  verdict := Memory.verdict failing
  makeDirectories_ends := by
    rintro path s ⟨rfl, bounded⟩
    change (memoryWindow _).Ends (onMemory fun m => m.makeDirectories path) s _ s.memory.fileState
    cases refused : Memory.verdict s.memory.failing .makeDirectories path with
    | error e =>
      obtain ⟨fails, rfl⟩ := Memory.fails_eq_true refused
      exact ends_onMemory (if_pos fails) rfl bounded rfl
    | ok =>
      have passes := Memory.fails_eq_false refused
      exact ends_onMemory (if_neg (by simp [passes])) rfl bounded rfl
  create_refused := by
    rintro path s e ⟨rfl, bounded⟩ refused
    obtain ⟨fails, rfl⟩ := Memory.fails_eq_true refused
    change (memoryWindow _).Ends (onMemory fun m => m.create path) s _ s.memory.fileState
    exact ends_onMemory (if_pos fails) rfl bounded rfl
  create_ends := by
    rintro path s ⟨rfl, bounded⟩ done
    have passes := Memory.fails_eq_false done
    refine ⟨s.memory.writers.next, ?_, ?_⟩
    · change (s.memory.writers.get? _).map _ = none
      rw [Writers.get?_next bounded]
      rfl
    · change (memoryWindow _).Ends (onMemory fun m => m.create path) s _
        ((s.memory.fileState.put path []).hold s.memory.writers.next (some (path, [])))
      refine ends_onMemory (if_neg (by simp [passes])) rfl (bounded.add path) ?_
      rw [← Memory.fileState_put]
      exact Memory.fileState_add (s.memory.put path []) path
  write_ends := by
    rintro handle data s path before ⟨rfl, bounded⟩ here
    obtain ⟨w, found, rfl, rfl⟩ := Memory.writer_of_desk here
    cases refused : Memory.verdict s.memory.failing .write w.place with
    | error e =>
      obtain ⟨fails, rfl⟩ := Memory.fails_eq_true refused
      change (memoryWindow _).Ends (onMemory fun m => m.write handle data) s _ s.memory.fileState
      exact ends_onMemory (by simp [Memory.write, found, fails]) rfl bounded rfl
    | ok =>
      have passes := Memory.fails_eq_false refused
      change (memoryWindow _).Ends (onMemory fun m => m.write handle data) s _
        (s.memory.fileState.hold handle (some (w.place, w.data ++ data)))
      have ended : s.memory.write handle data =
          (.ok (), { s.memory with writers := s.memory.writers.append handle data }) := by
        simp [Memory.write, found, passes]
      exact ends_onMemory ended rfl (bounded.append handle data)
        (s.memory.fileState_append here data)
  flush_ends := by
    rintro handle s path data ⟨rfl, bounded⟩ here
    obtain ⟨w, found, rfl, rfl⟩ := Memory.writer_of_desk here
    cases refused : Memory.verdict s.memory.failing .flush w.place with
    | error e =>
      obtain ⟨fails, rfl⟩ := Memory.fails_eq_true refused
      change (memoryWindow _).Ends (onMemory fun m => m.flush handle) s _ s.memory.fileState
      exact ends_onMemory (by simp [Memory.flush, found, fails]) rfl bounded rfl
    | ok =>
      have passes := Memory.fails_eq_false refused
      change (memoryWindow _).Ends (onMemory fun m => m.flush handle) s _
        (s.memory.fileState.put w.place w.data)
      have ended : s.memory.flush handle = (.ok (), s.memory.put w.place w.data) := by
        simp [Memory.flush, found, passes]
      exact ends_onMemory ended rfl bounded (s.memory.fileState_put w.place w.data)
  drop_ends := by
    rintro handle s path data ⟨rfl, bounded⟩ here
    obtain ⟨w, found, rfl, rfl⟩ := Memory.writer_of_desk here
    change (memoryWindow _).Ends (onMemory fun m => ((), m.drop handle)) s _
      ((s.memory.fileState.put w.place w.data).hold handle none)
    have ended : s.memory.drop handle = { s.memory.put w.place w.data with
        writers := s.memory.writers.remove handle } := by
      simp only [Memory.drop, found]
    refine ends_onMemory (congrArg ((), ·) ended) rfl (bounded.remove handle) ?_
    rw [← Memory.fileState_put]
    exact Memory.fileState_remove (s.memory.put w.place w.data) handle
  read_answer := by
    rintro path s t ⟨fails, -⟩ ⟨fails', -⟩ same
    change s.memory.read path = t.memory.read path
    have here : s.memory.get? path = t.memory.get? path := congrFun same path
    rw [Memory.read, Memory.read, Memory.fails, Memory.fails, fails, fails', here]
  isFile_answer := by
    rintro path s t - - same
    change (s.memory.get? path).isSome = (t.memory.get? path).isSome
    exact congrArg Option.isSome (congrFun same path)
  read_spares path s valid := ⟨valid, rfl⟩
  isFile_spares path s valid := ⟨valid, rfl⟩

/-- A host that has its files in memory. -/
def memoryView (failing : List (FileOperation × Path)) : Host.View (host memoryFiles) where
  toView := memoryFilesView failing
  now_spares s valid := ⟨valid, rfl⟩
  log_spares event s valid := ⟨valid, rfl⟩
  locate_spares executable s valid := ⟨valid, rfl⟩
  run_spares path input deadline s valid := by
    have memory : (s.run path input deadline).2.memory = s.memory := by
      unfold Sandbox.run
      split <;> rfl
    change ((s.run path input deadline).2.memory.failing = failing ∧
      (s.run path input deadline).2.memory.writers.Bounded) ∧
      (s.run path input deadline).2.memory.fileState = s.memory.fileState
    rw [memory]
    exact ⟨valid, rfl⟩

end Sandbox

end SchemaCompiler
