import SchemaCompiler.Proofs.FileSystem.MemoryView
import SchemaCompiler.Proofs.FileSystem.Recording
import SchemaCompiler.Proofs.Output.Writing
import SchemaCompiler.Proofs.Plugin.Phases

/-!
What a plugin's run comes to once its process has ended.

A bad status, an unreadable answer, a reported error and a refused name are looked for in this
order, and each of them leaves the file system untouched. Otherwise files are written up to the
first whose name was opened before.
-/

namespace SchemaCompiler

variable {σ : Type} {host : Host (StateM σ)} {view : Host.View host} {o : Output}
  {r r' : Run} {s s' : σ} {record : OutputRecord}

/-- The files in front of the first one whose name is claimed or comes again. -/
structure LongestFresh (claimed : List String) (kept rest : List ResponseFile) : Prop where
  distinct : (kept.map (·.name)).Nodup
  fresh : ∀ file ∈ kept, file.name ∉ claimed
  longest : ∀ file ∈ rest.head?, file.name ∈ claimed ∨ file.name ∈ kept.map (·.name)

namespace LongestFresh

theorem nil (claimed : List String) : LongestFresh claimed [] [] :=
  ⟨.nil, by simp, by simp⟩

theorem taken {claimed : List String} {file : ResponseFile} (files : List ResponseFile)
    (h : file.name ∈ claimed) : LongestFresh claimed [] (file :: files) :=
  ⟨.nil, by simp, by simpa using h⟩

theorem cons {claimed : List String} {file : ResponseFile} {kept rest : List ResponseFile}
    (free : file.name ∉ claimed) (h : LongestFresh (file.name :: claimed) kept rest) :
    LongestFresh claimed (file :: kept) rest := by
  constructor
  · refine List.nodup_cons.mpr ⟨fun again => ?_, h.distinct⟩
    obtain ⟨other, member, same⟩ := List.mem_map.mp again
    exact h.fresh other member (same ▸ List.mem_cons_self)
  · intro other member
    rcases List.mem_cons.mp member with rfl | later
    · exact free
    · exact fun claimed => h.fresh other later (List.mem_cons_of_mem _ claimed)
  · intro other first
    rcases h.longest other first with before | again
    · rcases List.mem_cons.mp before with same | claimed
      · exact .inr (List.mem_cons.mpr (.inl same))
      · exact .inl claimed
    · exact .inr (List.mem_cons_of_mem _ again)

/-- A longer front would hold a file whose name is not new. -/
theorem not_longer {claimed : List String} {kept rest longer rest' : List ResponseFile}
    {file : ResponseFile} (h : LongestFresh claimed kept (file :: rest))
    (h' : LongestFresh claimed (kept ++ file :: longer) rest') : False := by
  rcases h.longest file (by simp) with before | again
  · exact h'.fresh file (by simp) before
  · have distinct := h'.distinct
    rw [List.map_append, List.nodup_append] at distinct
    exact distinct.2.2 _ again _ (by simp) rfl

/-- There is one longest front. -/
theorem unique {claimed : List String} {kept rest kept' rest' : List ResponseFile}
    (h : LongestFresh claimed kept rest) (h' : LongestFresh claimed kept' rest')
    (same : kept ++ rest = kept' ++ rest') : kept = kept' ∧ rest = rest' := by
  obtain ⟨more, front, back⟩ | ⟨more, front, back⟩ := List.append_eq_append_iff.mp same
  · cases more with
    | nil => exact ⟨by simpa using front.symm, by simpa using back⟩
    | cons file more =>
      subst front back
      exact (h.not_longer h').elim
  · cases more with
    | nil => exact ⟨by simpa using front, by simpa using back.symm⟩
    | cons file more =>
      subst front back
      exact (h'.not_longer h).elim

end LongestFresh

/-! ## Contents -/

/-- The files with those of a response put at their places. -/
def FileState.putAll (f : FileState) (o : Output) (files : List ResponseFile) : FileState :=
  files.foldl (fun f file => f.put (o.place file.name) file.content) f

/-- Elsewhere files stay as they are. -/
theorem FileState.putAll_elsewhere (f : FileState) (o : Output) {files : List ResponseFile}
    {q : Path} (apart : ∀ file ∈ files, q.same (o.place file.name) = false) :
    (f.putAll o files).contents q = f.contents q := by
  induction files generalizing f with
  | nil => rfl
  | cons file files ih =>
    refine (ih _ fun other member => apart other (List.mem_cons_of_mem _ member)).trans ?_
    simp [put_contents, apart file List.mem_cons_self]

/-- Files of different accepted names keep their contents. -/
theorem FileState.putAll_at (f : FileState) (o : Output) {files : List ResponseFile}
    (distinct : (files.map (·.name)).Nodup)
    (accepted : ∀ file ∈ files, FileName.fault? file.name = none) {file : ResponseFile}
    (member : file ∈ files) {q : Path} (here : q.same (o.place file.name)) :
    (f.putAll o files).contents q = some file.content := by
  induction files generalizing f with
  | nil => cases member
  | cons first files ih =>
    obtain ⟨fresh, distinct⟩ := List.nodup_cons.mp distinct
    rcases List.mem_cons.mp member with rfl | later
    · change ((f.put (o.place file.name) file.content).putAll o files).contents q = _
      rw [putAll_elsewhere, put_contents, if_pos here]
      intro other later
      refine Bool.eq_false_iff.mpr fun also => fresh (List.mem_map.mpr ⟨other, later, ?_⟩)
      refine (o.place_injective (accepted file List.mem_cons_self)
        (accepted other (List.mem_cons_of_mem _ later)) ?_).symm
      rw [← Path.same_congr here, also]
    · exact ih _ distinct (fun other member => accepted other (List.mem_cons_of_mem _ member)) later

/-! ## Writing the files of a response -/

/-- Work whose errors are named. -/
theorem execute_attributed {generator : String} {doc : Document} {work : Work GenerateError Unit}
    {result : Except (Abort GenerateError) Unit}
    (h : Run.execute host work.run r s = ((result, r'), s')) :
    Run.execute host (work.attributed generator doc).run r s =
      ((match result with
        | .ok () => .ok ()
        | .error (.failed cause) => .error (.failed ⟨generator, doc.name, cause⟩)
        | .error (.panicked p) => .error (.panicked p), r'), s') := by
  refine (Run.execute_bind _ _ h).trans ?_
  rcases result with (cause | p) | ⟨⟩ <;> rfl

section

variable (accepting : ∀ operation path, view.verdict operation path = .ok ())
include accepting

/-- Files are written up to the first whose name is taken. -/
theorem execute_files {files : List ResponseFile}
    (accepted : ∀ file ∈ files, FileName.fault? file.name = none) (valid : view.Valid s)
    (here : r.outputs[o.id]? = some record) :
    ∃ kept rest r' s', files = kept ++ rest ∧ LongestFresh record.claimed kept rest ∧
      Run.execute host (files.forM fun file => Work.writeFile o file.name file.content).run r s =
        ((match rest with
          | [] => .ok ()
          | file :: _ => .error (.failed (.output (.duplicate file.name))), r'), s') ∧
      view.Valid s' ∧ view.files s' = (view.files s).putAll o kept := by
  induction files generalizing r s record with
  | nil => exact ⟨[], [], r, s, rfl, .nil _, rfl, valid, rfl⟩
  | cons file files ih =>
    have first := accepted file List.mem_cons_self
    by_cases taken : file.name ∈ record.claimed
    · obtain ⟨r', s', h, valid', unchanged⟩ :=
        execute_writeFile_taken accepting first file.content valid here taken
      refine ⟨[], file :: files, r', s', rfl, .taken files taken, ?_, valid', unchanged⟩
      have refused : Run.execute host (Work.writeFile o file.name file.content).run r s =
          ((.error (.failed (.output (.duplicate file.name))), r'), s') := by
        exact Run.execute_adapt _ (Run.execute_adapt _ h)
      rw [Run.execute_forM_cons _ file files refused]
    · obtain ⟨r₁, s₁, h, here₁, valid₁, files₁⟩ :=
        execute_writeFile_free accepting first file.content valid here taken
      have written : Run.execute host (Work.writeFile o file.name file.content).run r s =
          ((.ok (), r₁), s₁) := by
        exact Run.execute_adapt _ (Run.execute_adapt _ h)
      obtain ⟨kept, rest, r', s', split, longest, later, valid', files'⟩ :=
        ih (fun other member => accepted other (List.mem_cons_of_mem _ member)) valid₁ here₁
      refine ⟨file :: kept, rest, r', s', by rw [split]; rfl, longest.cons taken, ?_, valid', ?_⟩
      · rw [Run.execute_forM_cons _ file files written]
        exact later
      · rw [files', files₁]
        rfl

end

/-! ## What an ended process comes to -/

/-- What becomes of a response where some names are claimed: why it is turned down, if it is, and
the files that are written. -/
inductive Response.Used (claimed : List String) (response : Response) :
    Option GenerateError → List ResponseFile → Prop where
  | reported (error : response.error ≠ "") :
    Used claimed response (some (.reported response.error)) []
  | refused {front rest : List ResponseFile} {file : ResponseFile} {fault : FileName.Fault}
    (silent : response.error = "") (split : response.files = front ++ file :: rest)
    (accepted : ∀ before ∈ front, FileName.fault? before.name = none)
    (refused : FileName.fault? file.name = some fault) :
    Used claimed response (some (.output (.invalidName file.name fault))) []
  | repeated {kept rest : List ResponseFile} {file : ResponseFile} (silent : response.error = "")
    (accepted : ∀ file ∈ response.files, FileName.fault? file.name = none)
    (split : response.files = kept ++ file :: rest)
    (longest : LongestFresh claimed kept (file :: rest)) :
    Used claimed response (some (.output (.duplicate file.name))) kept
  | written (silent : response.error = "")
    (accepted : ∀ file ∈ response.files, FileName.fault? file.name = none)
    (longest : LongestFresh claimed response.files []) :
    Used claimed response none response.files

namespace Response.Used

variable {claimed : List String} {response : Response} {cause : Option GenerateError}
  {kept : List ResponseFile}

theorem kept_distinct (h : Used claimed response cause kept) : (kept.map (·.name)).Nodup := by
  cases h with
  | reported | refused => exact .nil
  | repeated _ _ _ longest | written _ _ longest => exact longest.distinct

theorem kept_accepted (h : Used claimed response cause kept) :
    ∀ file ∈ kept, FileName.fault? file.name = none := by
  cases h with
  | reported | refused => simp
  | repeated _ accepted split _ =>
    exact fun file member => accepted file (split ▸ List.mem_append_left _ member)
  | written _ accepted _ => exact accepted

end Response.Used

namespace Plugin

/-- What becomes of a process that exited, where some names are claimed: why the plugin failed, if
it did, and the files that are written. -/
inductive Concluded (claimed : List String) (status : Option Nat) (output messages : Bytes) :
    Option GenerateError → List ResponseFile → Prop where
  | failed (unsuccessful : status ≠ some 0) :
    Concluded claimed status output messages
      (some (.pluginProtocol (exitMessage status (Text.trim (Text.decodeLossy messages))))) []
  | malformed {e : WireFault} (success : status = some 0)
    (unread : Response.decode output = .error e) :
    Concluded claimed status output messages
      (some (.pluginProtocol ("malformed response: " ++ e.message))) []
  | answered {response : Response} {cause : Option GenerateError} {kept : List ResponseFile}
    (success : status = some 0) (decoded : Response.decode output = .ok response)
    (used : response.Used claimed cause kept) :
    Concluded claimed status output messages cause kept

namespace Concluded

variable {claimed : List String} {status : Option Nat} {output messages : Bytes}
  {cause : Option GenerateError} {kept : List ResponseFile}

theorem kept_distinct (h : Concluded claimed status output messages cause kept) :
    (kept.map (·.name)).Nodup := by
  cases h with
  | failed | malformed => exact .nil
  | answered _ _ used => exact used.kept_distinct

theorem kept_accepted (h : Concluded claimed status output messages cause kept) :
    ∀ file ∈ kept, FileName.fault? file.name = none := by
  cases h with
  | failed | malformed => simp
  | answered _ _ used => exact used.kept_accepted

end Concluded

theorem nameError?_eq_none {files : List ResponseFile} (h : nameError? files = none) :
    ∀ file ∈ files, FileName.fault? file.name = none := by
  intro file member
  simpa using List.findSome?_eq_none_iff.mp h file member

/-- The error of a refused name is that of the first one. -/
theorem nameError?_eq_some {files : List ResponseFile} {e : OutputError}
    (h : nameError? files = some e) :
    ∃ front file rest fault, files = front ++ file :: rest ∧
      (∀ before ∈ front, FileName.fault? before.name = none) ∧
      FileName.fault? file.name = some fault ∧ e = .invalidName file.name fault := by
  obtain ⟨front, file, rest, split, here, before⟩ := List.findSome?_eq_some_iff.mp h
  obtain ⟨fault, refused, rfl⟩ := Option.map_eq_some_iff.mp here
  exact ⟨front, file, rest, fault, split, fun other member => by simpa using before other member,
    refused, rfl⟩

/-- The result of work that either succeeds or fails for a cause. -/
def resultOf {ε α : Type} (value : α) : Option ε → Except (Abort ε) α
  | none => .ok value
  | some cause => .error (.failed cause)

/-- Logging leaves the files alone. -/
theorem execute_log {ε : Type} {event : Event} (valid : view.Valid s) :
    ∃ s', Run.execute host (Work.perform (.log event) : Work ε Unit).run r s = ((.ok (), r), s') ∧
      view.Valid s' ∧ view.files s' = view.files s := by
  have logged : Run.perform host (.log event) r s = _ := Run.perform_log event r s
  exact ⟨_, Run.execute_ask _ logged, (Host.View.perform_aside rfl valid logged).2⟩

section

variable (accepting : ∀ operation path, view.verdict operation path = .ok ())
include accepting

theorem execute_useOutput (bytes messages : Bytes) (valid : view.Valid s)
    (here : r.outputs[o.id]? = some record) :
    ∃ cause kept count r' s', Concluded record.claimed (some 0) bytes messages cause kept ∧
      Run.execute host (useOutput o bytes).run r s = ((resultOf count cause, r'), s') ∧
      view.Valid s' ∧ view.files s' = (view.files s).putAll o kept := by
  unfold useOutput
  cases decoded : Response.decode bytes with
  | error e => exact ⟨_, [], 0, r, s, .malformed rfl decoded, rfl, valid, rfl⟩
  | ok response =>
    by_cases silent : response.error = ""
    · have empty : response.error.isEmpty = true := String.isEmpty_iff.mpr silent
      cases names : nameError? response.files with
      | some e =>
        obtain ⟨front, file, rest, fault, split, accepted, refused, rfl⟩ := nameError?_eq_some names
        refine ⟨_, [], 0, r, s,
          .answered rfl decoded (.refused silent split accepted refused), ?_, valid, rfl⟩
        simp only [empty, names, if_true]
        rfl
      | none =>
        have accepted := nameError?_eq_none names
        obtain ⟨kept, rest, r', s', split, longest, h, valid', files'⟩ :=
          execute_files accepting accepted valid here
        cases rest with
        | nil =>
          rw [List.append_nil] at split
          subst split
          refine ⟨none, response.files, response.files.length, r', s',
            .answered rfl decoded (.written silent accepted longest), ?_, valid', files'⟩
          simp only [empty, names, if_true]
          exact Run.execute_bind_ok _ h
        | cons file rest =>
          refine ⟨_, kept, 0, r', s',
            .answered rfl decoded (.repeated silent accepted split longest), ?_, valid', files'⟩
          simp only [empty, names, if_true]
          exact Run.execute_bind_error _ h
    · have spoken : response.error.isEmpty = false := by
        rw [Bool.eq_false_iff, ne_eq, String.isEmpty_iff]
        exact silent
      refine ⟨_, [], 0, r, s, .answered rfl decoded (.reported silent), ?_, valid, rfl⟩
      simp only [spoken, Bool.false_eq_true, if_false]
      rfl

theorem execute_conclude (a : Assignment) (executable : Path) (status : Option Nat)
    (output messages : Bytes) (valid : view.Valid s)
    (here : r.outputs[a.output.id]? = some record) :
    ∃ cause kept r' s', Concluded record.claimed status output messages cause kept ∧
      Run.execute host (conclude a executable (.exited status output messages)).run r s =
        ((resultOf () cause, r'), s') ∧
      view.Valid s' ∧ view.files s' = (view.files s).putAll a.output kept := by
  have used {s : σ} (valid : view.Valid s) :
      ∃ cause kept r' s', Concluded record.claimed (some 0) output messages cause kept ∧
        Run.execute host (do
          let count ← useOutput a.output output
          Work.perform (.log (.pluginFinished executable count)) : Work GenerateError Unit).run r s =
          ((resultOf () cause, r'), s') ∧
        view.Valid s' ∧ view.files s' = (view.files s).putAll a.output kept := by
    obtain ⟨cause, kept, count, r', s', concluded, h, valid', files'⟩ :=
      execute_useOutput accepting output messages valid here
    cases cause with
    | some cause =>
      exact ⟨_, kept, r', s', concluded, Run.execute_bind_error _ h, valid', files'⟩
    | none =>
      obtain ⟨s'', finished, valid'', files''⟩ := execute_log valid'
      exact ⟨_, kept, r', s'', concluded, (Run.execute_bind_ok _ h).trans finished, valid'',
        files''.trans files'⟩
  by_cases success : status = some 0
  · subst success
    simp only [conclude, if_true]
    split
    · exact used valid
    · obtain ⟨s₁, said, valid₁, files₁⟩ := execute_log valid
      rw [Run.execute_bind_ok _ said, ← files₁]
      exact used valid₁
  · refine ⟨_, [], r, s, .failed success, ?_, valid, rfl⟩
    simp only [conclude, if_neg success]
    rfl

end

/-- Where nothing is kept, what is made of the answer only asks something of the surroundings,
unless it fails for a repeated name. -/
theorem useOutput_asks {claimed : List String} {bytes messages : Bytes}
    {cause : Option GenerateError} {kept : List ResponseFile} (o : Output)
    (concluded : Concluded claimed (some 0) bytes messages cause kept) (nothing : kept = [])
    (new : ∀ name, cause ≠ some (.output (.duplicate name))) :
    Program.Asks (useOutput o bytes).run := by
  cases concluded with
  | failed unsuccessful => exact absurd rfl unsuccessful
  | malformed _ unread =>
    unfold useOutput
    rw [unread]
    exact .done _
  | @answered response _ _ _ decoded used =>
    unfold useOutput
    rw [decoded]
    cases spoken : response.error.isEmpty with
    | false =>
      simp only [spoken, Bool.false_eq_true, if_false]
      exact .done _
    | true =>
      simp only [spoken, if_true]
      cases names : nameError? response.files with
      | some e => exact .done _
      | none =>
        have accepted := nameError?_eq_none names
        cases used with
        | reported error => exact absurd (String.isEmpty_iff.mp spoken) error
        | @refused _ _ file _ _ split _ refused =>
          cases refused.symm.trans (accepted file (by simp [split]))
        | repeated => exact absurd rfl (new _)
        | written =>
          rw [nothing]
          exact .done _

theorem conclude_asks {claimed : List String} {status : Option Nat} {output messages : Bytes}
    {cause : Option GenerateError} {kept : List ResponseFile} (a : Assignment) (executable : Path)
    (concluded : Concluded claimed status output messages cause kept) (nothing : kept = [])
    (new : ∀ name, cause ≠ some (.output (.duplicate name))) :
    Program.Asks (conclude a executable (.exited status output messages)).run := by
  by_cases success : status = some 0
  · subst success
    have used : Program.Asks (do
        let count ← useOutput a.output output
        Work.perform (.log (.pluginFinished executable count)) : Work GenerateError Unit).run :=
      only_bind (useOutput_asks a.output concluded nothing new) fun _ => only_perform rfl
    simp only [conclude, if_true]
    split
    · exact used
    · exact only_bind (only_perform rfl) fun _ => used
  · simp only [conclude, if_neg success]
    exact .done _

/-- Where the file system refuses nothing, a plugin whose process has exited fails or succeeds as
its status and its answer say. The files that are kept are written, each at the place of its name,
and all others stay as they are. Where nothing is kept, no file is created and no directory is made
either, unless a name came again. -/
theorem generator_concludes (view : Host.View host)
    (accepting : ∀ operation path, view.verdict operation path = .ok ()) (p : Plugin)
    (a : Assignment) {r₁ : Run} {s₁ : σ} {executable : Path} {status : Option Nat}
    {output messages : Bytes} (valid : view.Valid s)
    (here : r.outputs[a.output.id]? = some record)
    (waited : Run.execute host (p.await a).run r s =
      ((.ok (executable, .exited status output messages), r₁), s₁)) :
    ∃ cause kept r' s', Concluded record.claimed status output messages cause kept ∧
      Run.execute host (p.generator a).run r s =
        ((match cause with
          | none => .ok ()
          | some cause => .error (.failed ⟨p.executable, a.document.name, cause⟩), r'), s') ∧
      (∀ file ∈ kept, ∀ q : Path, q.same (a.output.place file.name) →
        (view.files s').contents q = some file.content) ∧
      (∀ q : Path, (∀ file ∈ kept, ¬ q.same (a.output.place file.name)) →
        (view.files s').contents q = (view.files s).contents q) ∧
      (kept = [] → (∀ name, cause ≠ some (.output (.duplicate name))) → ∀ calls, ∃ more,
        Run.execute host.recorded (p.generator a).run r (s, calls) =
            ((Run.execute host (p.generator a).run r s).1, (s', calls ++ more)) ∧
          ∀ call ∈ more, call.creates? = none ∧ call.makes? = none) := by
  obtain ⟨outputs, valid₁, files₁⟩ := Host.View.execute_asks (p.asks_await a) valid waited
  obtain ⟨cause, kept, r', s', concluded, h, -, files'⟩ :=
    execute_conclude accepting a executable status output messages valid₁ (outputs ▸ here)
  have generated : Run.execute host (p.generate a).run r s = ((resultOf () cause, r'), s') := by
    rw [generate_eq, Run.execute_bind_ok _ waited]
    exact h
  refine ⟨cause, kept, r', s', concluded, ?_, ?_, ?_, ?_⟩
  · rw [generator, execute_attributed generated]
    cases cause <;> rfl
  · intro file member q same
    rw [files', FileState.putAll_at _ _ concluded.kept_distinct concluded.kept_accepted member same]
  · intro q apart
    rw [files', FileState.putAll_elsewhere _ _ fun file member =>
      Bool.eq_false_iff.mpr (apart file member), files₁]
  · intro nothing new calls
    obtain ⟨before, awaited, plain⟩ :=
      Run.execute_recorded_of_asks host (p.asks_await a) r s calls
    obtain ⟨behind, ended, plain'⟩ := Run.execute_recorded_of_asks host
      (conclude_asks a executable concluded nothing new) r₁ s₁ (calls ++ before)
    rw [waited] at awaited
    rw [h, List.append_assoc] at ended
    have recorded : Run.execute host.recorded (p.generate a).run r (s, calls) =
        ((resultOf () cause, r'), (s', calls ++ (before ++ behind))) := by
      rw [generate_eq, Run.execute_bind_ok _ awaited]
      exact ended
    refine ⟨before ++ behind, ?_, List.forall_mem_append.mpr ⟨plain, plain'⟩⟩
    rw [generator, execute_attributed recorded, execute_attributed generated]
    cases cause <;> rfl

/-- A host with files in memory, whose processes all exit well with one answer. -/
def answering (output : Bytes) : Host (StateM Sandbox) :=
  { Sandbox.host Sandbox.memoryFiles with
    locate executable := return .ok ⟨"/bin/" ++ executable⟩
    run _ _ _ := return .exited (some 0) output [] }

def answeringView (output : Bytes) : Host.View (answering output) :=
  { toView := Sandbox.memoryFilesView []
    now_spares := fun _ valid => ⟨valid, rfl⟩
    log_spares := fun _ _ valid => ⟨valid, rfl⟩
    locate_spares := fun _ _ valid => ⟨valid, rfl⟩
    run_spares := fun _ _ _ _ valid => ⟨valid, rfl⟩ }

/-- A response that holds a file, a nested one, and the first one again. -/
def repeatingResponse : Response := ⟨"", [⟨"a", [0x41]⟩, ⟨"b/c", []⟩, ⟨"a", []⟩]⟩

def repeatingAnswer : Bytes := (repeatingResponse.encode.toOption).getD []

set_option maxRecDepth 4000 in
theorem decode_repeatingAnswer : Response.decode repeatingAnswer = .ok repeatingResponse := rfl

/-- The first file and the nested one are written before the plugin fails. -/
theorem concluded_repeatingAnswer {cause : Option GenerateError} {kept : List ResponseFile}
    (h : Concluded ["z"] (some 0) repeatingAnswer [] cause kept) :
    cause = some (.output (.duplicate "a")) ∧ kept = [⟨"a", [0x41]⟩, ⟨"b/c", []⟩] := by
  have longest : LongestFresh ["z"] [⟨"a", [0x41]⟩, ⟨"b/c", []⟩] [⟨"a", []⟩] :=
    ⟨by decide, by decide, by simp⟩
  cases h with
  | failed unsuccessful => exact absurd rfl unsuccessful
  | malformed _ unread => cases decode_repeatingAnswer.symm.trans unread
  | answered _ decoded used =>
    cases decode_repeatingAnswer.symm.trans decoded
    cases used with
    | reported error => exact absurd rfl error
    | @refused _ _ file _ _ split _ refused =>
      have accepted : ∀ file ∈ repeatingResponse.files, FileName.fault? file.name = none := by
        decide
      cases refused.symm.trans (accepted file (split ▸ by simp))
    | repeated _ _ split longest' =>
      obtain ⟨rfl, rest⟩ := longest'.unique longest split.symm
      cases rest
      exact ⟨rfl, rfl⟩
    | written _ _ longest' =>
      cases (longest'.unique longest rfl).2

/-- What a plugin is handed for an empty document. -/
def emptyAssignment : Assignment := ⟨⟨0, ⟨"out"⟩⟩, ⟨0, none⟩, ⟨"empty", "empty.gql", []⟩, []⟩

set_option maxRecDepth 4000 in
theorem generator_concludes_repeating :
    let plugin : Plugin := ⟨"sdlc-gen-", "x", none⟩
    ∃ r' s', Run.execute (answering repeatingAnswer) (plugin.generator emptyAssignment).run
        { Run.start .empty with outputs := [⟨⟨"out"⟩, false, ["z"]⟩] } .empty =
      ((.error (.failed ⟨"sdlc-gen-x", "empty", .output (.duplicate "a")⟩), r'), s') ∧
      s'.memory.get? ⟨"out/a"⟩ = some [0x41] ∧ s'.memory.get? ⟨"out/b/c"⟩ = some [] := by
  intro plugin
  obtain ⟨cause, kept, r', s', concluded, h, written, -, -⟩ :=
    generator_concludes (r := { Run.start .empty with outputs := [⟨⟨"out"⟩, false, ["z"]⟩] })
      (s := .empty) (answeringView repeatingAnswer) (fun _ _ => rfl) plugin emptyAssignment
      ⟨rfl, by simp [Writers.Bounded, Sandbox.empty, Memory.empty, Writers.empty]⟩ rfl rfl
  obtain ⟨rfl, rfl⟩ := concluded_repeatingAnswer concluded
  exact ⟨r', s', h, written ⟨"a", [0x41]⟩ (by simp) _ (by decide),
    written ⟨"b/c", []⟩ (by simp) _ (by decide)⟩

end Plugin

end SchemaCompiler
