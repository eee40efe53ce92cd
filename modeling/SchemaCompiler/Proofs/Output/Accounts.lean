import SchemaCompiler.Proofs.FileSystem.Marks
import SchemaCompiler.Proofs.Output.Ledger

/-!
Ledgers account for the changes that clients make to files.

Each entry stands for some changes: one for a success that is seen in the files, none for a failure,
and in any case a drop for closing or dropping a file. So the entries behind the opening of a file
tell what the file shows.
-/

namespace SchemaCompiler

/-! ## Entries -/

/-- A file is dropped, after a flush unless that was refused. -/
inductive FileEvent.Closing (handle : Handle) : List FileEvent → Prop where
  | flushed : Closing handle [.flushed handle, .dropped handle]
  | unflushed : Closing handle [.dropped handle]

/-- The changes to files that an entry stands for. -/
inductive LedgerEntry.Backed (o : Output) : LedgerEntry → List FileEvent → Prop where
  | refused (name : String) (e : OutputError) : Backed o (.opened name (.error e)) []
  | opened {name : String} {file : OutputFile} (accepted : FileName.fault? name = none)
    (place : file.path = o.place name) :
    Backed o (.opened name (.ok file)) [.opened file.path file.handle]
  | wrote (file : OutputFile) (data : Bytes) :
    Backed o (.wrote file data (.ok ())) [.wrote file.handle data]
  | wroteNothing (file : OutputFile) : Backed o (.wrote file [] (.ok ())) []
  | unwritten (file : OutputFile) (data : Bytes) (e : IoError) :
    Backed o (.wrote file data (.error e)) []
  | flushed (file : OutputFile) : Backed o (.flushed file (.ok ())) [.flushed file.handle]
  | unflushed (file : OutputFile) (e : IoError) : Backed o (.flushed file (.error e)) []
  | closed (file : OutputFile) (answer : Except OutputError Unit) {more : List FileEvent}
    (closing : FileEvent.Closing file.handle more) : Backed o (.closed file answer) more
  | dropped (file : OutputFile) {more : List FileEvent}
    (closing : FileEvent.Closing file.handle more) : Backed o (.dropped file) more

/-- The changes that the entries of a ledger stand for, one after another. -/
inductive Ledger.Backed (o : Output) : Ledger → List FileEvent → Prop where
  | nothing : Backed o [] []
  | entry {entry : LedgerEntry} {more events : List FileEvent} {ledger : Ledger}
    (first : entry.Backed o more) (later : Backed o ledger events) :
    Backed o (entry :: ledger) (more ++ events)

section

variable {o : Output} {entry : LedgerEntry} {entries ledger : Ledger} {events more : List FileEvent}
  {handle other : Handle}

namespace FileEvent.Closing

theorem written_eq (closing : Closing other more) (handle : Handle) : written handle more = [] := by
  cases closing <;> rfl

theorem dropped_mem_iff (closing : Closing other more) (handle : Handle) :
    .dropped handle ∈ more ↔ decide (other = handle) = true := by
  cases closing <;> simp [eq_comm]

theorem flushed_not_mem (closing : Closing other more)
    (different : decide (other = handle) = false) : .flushed handle ∉ more := by
  cases closing with
  | flushed => simpa [eq_comm] using different
  | unflushed => simp

theorem opened_not_mem (closing : Closing other more) {path : Path} :
    .opened path handle ∉ more := by
  cases closing <;> simp

theorem handle_eq (closing : Closing other more) : ∀ event ∈ more, event.handle = other := by
  cases closing <;> simp [handle]

end FileEvent.Closing

namespace LedgerEntry.Backed

theorem written_eq (backed : entry.Backed o more) (handle : Handle) :
    FileEvent.written handle more = entry.dataFor handle := by
  cases backed with
  | wrote file data => exact List.append_nil _
  | wroteNothing file => exact (ite_self _).symm
  | closed file answer closing => exact closing.written_eq handle
  | dropped file closing => exact closing.written_eq handle
  | refused | opened | unwritten | flushed | unflushed => rfl

theorem dropped_mem_iff (backed : entry.Backed o more) (handle : Handle) :
    .dropped handle ∈ more ↔ entry.ends handle = true := by
  cases backed with
  | closed file answer closing => exact closing.dropped_mem_iff handle
  | dropped file closing => exact closing.dropped_mem_iff handle
  | _ => simp [ends]

theorem eq_of_flushes (backed : entry.Backed o more) (flushes : entry.flushes handle = true) :
    more = [.flushed handle] := by
  cases backed with
  | flushed file => rw [← of_decide_eq_true flushes]
  | _ => cases flushes

theorem flushed_not_mem (backed : entry.Backed o more) (other : entry.flushes handle = false)
    (still : entry.ends handle = false) : .flushed handle ∉ more := by
  cases backed with
  | flushed file =>
    have different : file.handle ≠ handle := of_decide_eq_false other
    simp [Ne.symm different]
  | closed file answer closing => exact closing.flushed_not_mem still
  | dropped file closing => exact closing.flushed_not_mem still
  | _ => simp

end LedgerEntry.Backed

namespace Ledger

namespace Backed

theorem append (first : Backed o entries more) (later : Backed o ledger events) :
    Backed o (entries ++ ledger) (more ++ events) := by
  induction first with
  | nothing => exact later
  | entry backed _ ih =>
    rw [List.append_assoc]
    exact .entry backed ih

theorem split (backed : Backed o (entries ++ ledger) events) :
    ∃ before after, events = before ++ after ∧ Backed o entries before ∧ Backed o ledger after := by
  induction entries generalizing events with
  | nil => exact ⟨[], events, rfl, .nothing, backed⟩
  | cons entry entries ih =>
    cases backed with
    | @entry _ more _ _ first rest =>
      obtain ⟨before, after, rfl, front, later⟩ := ih rest
      exact ⟨more ++ before, after, (List.append_assoc _ _ _).symm, .entry first front, later⟩

theorem split_last (backed : Backed o (ledger ++ [entry]) events) :
    ∃ before more, events = before ++ more ∧ Backed o ledger before ∧ entry.Backed o more := by
  obtain ⟨before, after, rfl, front, last⟩ := backed.split
  cases last with
  | entry first rest =>
    cases rest
    exact ⟨before, _, by rw [List.append_nil], front, first⟩

/-- The files that a ledger opens are those that its changes open. -/
theorem opened_of_mem (backed : Backed o ledger events) {path : Path}
    (member : .opened path handle ∈ events) :
    ∃ name file, .opened name (.ok file) ∈ ledger ∧ file.path = path ∧ file.handle = handle := by
  induction backed with
  | nothing => cases member
  | entry first later ih =>
    rcases List.mem_append.mp member with now | after
    · cases first with
      | opened accepted place =>
        cases List.mem_singleton.mp now
        exact ⟨_, _, List.mem_cons_self, rfl, rfl⟩
      | closed _ _ closing => exact absurd now closing.opened_not_mem
      | dropped _ closing => exact absurd now closing.opened_not_mem
      | wrote | flushed => cases List.mem_singleton.mp now
      | _ => cases now
    · obtain ⟨name, file, listed, same⟩ := ih after
      exact ⟨name, file, List.mem_cons_of_mem _ listed, same⟩

theorem written_eq (backed : Backed o ledger events) (handle : Handle) :
    FileEvent.written handle events = written handle ledger := by
  induction backed with
  | nothing => rfl
  | entry first later ih =>
    rw [FileEvent.written, List.flatMap_append, written, List.flatMap_cons]
    exact congrArg₂ _ (first.written_eq handle) ih

theorem dropped_mem_iff (backed : Backed o ledger events) (handle : Handle) :
    .dropped handle ∈ events ↔ ledger.any (·.ends handle) = true := by
  induction backed with
  | nothing => simp
  | entry first later ih =>
    rw [List.mem_append, first.dropped_mem_iff, ih, List.any_cons, Bool.or_eq_true]

/-- As long as a file is open, its ledger and its changes agree on what was flushed. -/
theorem written_untilFlushed_eq (backed : Backed o ledger events)
    (still : ledger.any (·.ends handle) = false) :
    FileEvent.written handle (FileEvent.untilFlushed handle events) =
      written handle (untilFlushed handle ledger) := by
  -- from the end of both, where the last flush is met first
  induction ledger using List.reverseRecOn generalizing events with
  | nil =>
    cases backed
    rfl
  | append_singleton ledger entry ih =>
    have whole := backed.written_eq handle
    obtain ⟨before, more, rfl, front, last⟩ := backed.split_last
    simp only [List.any_append, List.any_cons, List.any_nil, Bool.or_false,
      Bool.or_eq_false_iff] at still
    cases flush : entry.flushes handle with
    | true =>
      obtain rfl := last.eq_of_flushes flush
      rw [FileEvent.untilFlushed_flush, whole, untilFlushed,
        List.rdropWhile_concat_neg _ _ _ (by simp [flush])]
    | false =>
      rw [FileEvent.untilFlushed_append (last.flushed_not_mem flush still.2), ih front still.1,
        untilFlushed, untilFlushed, List.rdropWhile_concat_pos _ _ _ (by simp [flush])]

/-- What a file has to hold is what its changes show. -/
theorem due_eq (backed : Backed o ledger events) (handle : Handle) :
    FileEvent.shown handle events = due handle ledger := by
  cases ended : ledger.any (·.ends handle) with
  | true =>
    rw [FileEvent.shown, if_pos ((backed.dropped_mem_iff handle).mpr ended), due, ended, if_pos rfl]
    exact backed.written_eq handle
  | false =>
    have still : .dropped handle ∉ events := by
      rw [backed.dropped_mem_iff handle, ended]
      exact Bool.false_ne_true
    rw [FileEvent.shown, if_neg still, due, ended, if_neg Bool.false_ne_true]
    exact backed.written_untilFlushed_eq ended

end Backed

end Ledger

end

/-! ## What clients change -/

open Program (Leaves noting)

/-- The entries stand for the changes, and these are to given files or to files that they open. -/
structure Accounts (o : Output) (files : List OutputFile) (events : List FileEvent)
    (ledger : Ledger) : Prop where
  backed : Ledger.Backed o ledger events
  owned : ∀ event ∈ events, (∃ file ∈ files, file.handle = event.handle) ∨
    ∃ path, .opened path event.handle ∈ events

section

variable {o : Output} {files : List OutputFile}

theorem Accounts.append {entries ledger : Ledger} {more events : List FileEvent}
    {files' : List OutputFile} (first : Accounts o files more entries)
    (later : Accounts o files' events ledger)
    (own : ∀ file ∈ files', file ∈ files ∨ .opened file.path file.handle ∈ more) :
    Accounts o files (more ++ events) (entries ++ ledger) := by
  refine ⟨first.backed.append later.backed, fun event member => ?_⟩
  rcases List.mem_append.mp member with now | after
  · exact (first.owned event now).imp_right fun ⟨path, opened⟩ =>
      ⟨path, List.mem_append_left _ opened⟩
  · rcases later.owned event after with ⟨file, given, same⟩ | ⟨path, opened⟩
    · rcases own file given with before | opened
      · exact .inl ⟨file, before, same⟩
      · exact .inr ⟨file.path, List.mem_append_left _ (same ▸ opened)⟩
    · exact .inr ⟨path, List.mem_append_right _ opened⟩

/-- An entry on a file that is given. -/
theorem LedgerEntry.Backed.accounts {entry : LedgerEntry} {more : List FileEvent}
    (backed : entry.Backed o more) {file : OutputFile} (given : file ∈ files)
    (on : ∀ event ∈ more, event.handle = file.handle) : Accounts o files more [entry] := by
  refine ⟨?_, fun event member => .inl ⟨file, given, (on event member).symm⟩⟩
  have whole := Ledger.Backed.entry backed .nothing
  rwa [List.append_nil] at whole

theorem Output.makeParent_leaves (name : String) :
    Leaves (fun more _ => more = []) (o.makeParent name).run := by
  cases nested : name.toList.contains '/' with
  | false =>
    rw [Output.run_makeParent_flat nested]
    exact rfl
  | true =>
    rcases here : (o.place name).parent? with - | parent
    · unfold Output.makeParent
      rw [nested, here]
      exact rfl
    · rw [Output.run_makeParent_nested nested here]
      intro answer
      cases answer <;> exact rfl

theorem Output.openFile_leaves (files : List OutputFile) (name : String) :
    Leaves (fun more answer => Accounts o files more [.opened name answer])
      (o.openFile name).run := by
  have refused (e : OutputError) : Accounts o files [] [.opened name (.error e)] :=
    ⟨.entry (.refused name e) .nothing, List.forall_mem_nil _⟩
  cases accepted : FileName.fault? name with
  | some fault =>
    rw [Output.run_openFile_of_fault accepted]
    exact refused _
  | none =>
    rw [Output.run_openFile accepted]
    rintro (e | ⟨⟩)
    · exact refused _
    refine (Output.makeParent_leaves name).bind ?_
    rintro _ (e | ⟨⟩) rfl
    · exact refused _
    rintro (_ | _)
    · exact refused _
    rintro (e | handle)
    · exact refused _
    · change Accounts o files [.opened (o.place name) handle] _
      refine ⟨.entry (.opened accepted rfl) .nothing, fun event member => .inr ⟨o.place name, ?_⟩⟩
      rw [List.mem_singleton.mp member]
      exact List.mem_cons_self

theorem OutputFile.write_leaves (o : Output) {file : OutputFile} (given : file ∈ files)
    (data : Bytes) :
    Leaves (fun more answer => Accounts o files more [.wrote file data answer])
      (file.write data).run := by
  rw [OutputFile.run_write]
  split
  · next nothing =>
    obtain rfl := List.isEmpty_iff.mp nothing
    exact (LedgerEntry.Backed.wroteNothing file).accounts given (List.forall_mem_nil _)
  · rintro (e | ⟨⟩)
    · exact (LedgerEntry.Backed.unwritten file data e).accounts given (List.forall_mem_nil _)
    · exact (LedgerEntry.Backed.wrote file data).accounts given (List.forall_mem_singleton.mpr rfl)

theorem OutputFile.flush_leaves (o : Output) {file : OutputFile} (given : file ∈ files) :
    Leaves (fun more answer => Accounts o files more [.flushed file answer]) file.flush.run := by
  rintro (e | ⟨⟩)
  · exact (LedgerEntry.Backed.unflushed file e).accounts given (List.forall_mem_nil _)
  · exact (LedgerEntry.Backed.flushed file).accounts given (List.forall_mem_singleton.mpr rfl)

/-- A file is dropped whether or not flushing it succeeds. -/
theorem OutputFile.close_leaves (o : Output) {file : OutputFile} (given : file ∈ files) :
    Leaves (fun more answer => Accounts o files more [.closed file answer]) file.close.run := by
  rw [OutputFile.run_close]
  rintro (e | ⟨⟩) ⟨⟩
  · exact (LedgerEntry.Backed.closed file _ .unflushed).accounts given
      FileEvent.Closing.unflushed.handle_eq
  · exact (LedgerEntry.Backed.closed file _ .flushed).accounts given
      FileEvent.Closing.flushed.handle_eq

theorem OutputFile.drop_leaves (o : Output) {file : OutputFile} (given : file ∈ files) :
    Leaves (fun more _ => Accounts o files more [.dropped file]) file.drop := by
  rintro (e | ⟨⟩) ⟨⟩
  · exact (LedgerEntry.Backed.dropped file .unflushed).accounts given
      FileEvent.Closing.unflushed.handle_eq
  · exact (LedgerEntry.Backed.dropped file .flushed).accounts given
      FileEvent.Closing.flushed.handle_eq

/-- A file that was opened belongs to those that the changes open. -/
theorem Accounts.opened {name : String} {file : OutputFile} {more : List FileEvent}
    (accounts : Accounts o files more [.opened name (.ok file)]) :
    .opened file.path file.handle ∈ more := by
  cases accounts.backed with
  | entry first later =>
    cases first
    exact List.mem_cons_self

theorem Output.tellFile_leaves (name : String) (content : Bytes) :
    Leaves (fun more told => Accounts o files more told.2) (o.tellFile name content) := by
  refine (Output.openFile_leaves files name).bind ?_
  rintro opening (e | file) opened
  · change Accounts o files (opening ++ []) _
    rwa [List.append_nil]
  have mine : file ∈ [file] := List.mem_cons_self
  have own : ∀ other ∈ [file], other ∈ files ∨ .opened other.path other.handle ∈ opening :=
    List.forall_mem_singleton.mpr (.inr opened.opened)
  refine (OutputFile.write_leaves o mine content).bind ?_
  rintro writing (e | ⟨⟩) written
  · refine (OutputFile.drop_leaves o mine).map fun ending _ dropped => ?_
    exact opened.append (written.append dropped fun other given => .inl given) own
  · refine (OutputFile.close_leaves o mine).map fun ending answer closed => ?_
    exact opened.append (written.append closed fun other given => .inl given) own

/-- What is noted behind a use accounts for it and for what comes later. -/
theorem Program.noting_leaves {files' : List OutputFile} {more : List FileEvent} {entries : Ledger}
    {p : Program Ledger} (first : Accounts o files more entries)
    (later : Leaves (Accounts o files') p)
    (own : ∀ file ∈ files', file ∈ files ∨ .opened file.path file.handle ∈ more) :
    Leaves (fun events ledger => Accounts o files (more ++ events) ledger) (noting entries p) :=
  later.map fun _ _ accounts => first.append accounts own

theorem Program.use_leaves {α : Type} {use : Program α} {entries : α → Ledger}
    {rest : α → Program Ledger}
    (first : Leaves (fun more a => Accounts o files more (entries a)) use)
    (later : ∀ a, Leaves (Accounts o files) (rest a)) :
    Leaves (Accounts o files) (use.bind fun a => noting (entries a) (rest a)) :=
  first.bind fun _ a accounts => Program.noting_leaves accounts (later a) fun _ given => .inl given

/-- Whatever the answers, the ledger of a client accounts for what it changes. -/
theorem Client.ledger_leaves (c : Client files) : Leaves (Accounts o files) (c.ledger o) := by
  induction c with
  | done => exact ⟨.nothing, List.forall_mem_nil _⟩
  | @openFile files name refused opened ihRefused ihOpened =>
    rw [Client.ledger]
    refine (Output.openFile_leaves files name).bind ?_
    rintro more (e | file) first
    · exact Program.noting_leaves first (ihRefused e) fun other given => .inl given
    · refine Program.noting_leaves first (ihOpened file) fun other given => ?_
      rcases List.mem_cons.mp given with rfl | before
      · exact .inr first.opened
      · exact .inl before
  | write file own data next ih => exact Program.use_leaves (OutputFile.write_leaves o own data) ih
  | flush file own next ih => exact Program.use_leaves (OutputFile.flush_leaves o own) ih
  | close file own next ih => exact Program.use_leaves (OutputFile.close_leaves o own) ih
  | drop file own next ih =>
    exact Program.use_leaves (OutputFile.drop_leaves o own) fun _ => ih
  | writeFile name content next ih =>
    exact Program.use_leaves (Output.tellFile_leaves name content) fun told => ih told.1

end

end SchemaCompiler
