import SchemaCompiler.Proofs.FileSystem.View

/-!
What a program comes to by itself.

A program that writes through one output is followed without a host: file operations are refused or
not as a view says, handles are any that are free, and the surroundings give any answer that they
can give at all. What it ends with is said by a condition on its result, on its own files and on the
names that it took.
-/

namespace SchemaCompiler

variable {σ α β : Type} {host : Host (StateM σ)}

/-- No file is touched and none is open. -/
def FileState.empty : FileState := ⟨fun _ => none, fun _ => none⟩

namespace Program

section

variable (view : Host.View host) (cancellations : Cancellations) (o : Output) (places : Path → Prop)

/-- The program, with its own files and the names that it took, ends as `Q` says, and all files that
it creates lie at the given places. -/
def Settles (Q : α → FileState → List String → Prop) :
    Program α → FileState → List String → Prop
  | .done a, own, taken => Q a own taken
  | .ask (.prepare id) next, own, taken =>
    id = o.id ∧ Settles Q (next (view.verdict .makeDirectories o.directory)) own taken
  | .ask (.makeDirectories path) next, own, taken =>
    Settles Q (next (view.verdict .makeDirectories path)) own taken
  | .ask (.claim id name) next, own, taken =>
    id = o.id ∧
      if name ∈ taken then Settles Q (next false) own taken
      else places (o.place name) ∧ Settles Q (next true) own (name :: taken)
  | .ask (.create path) next, own, taken =>
    places path ∧
      (∀ e, view.verdict .create path = .error e → Settles Q (next (.error e)) own taken) ∧
      (view.verdict .create path = .ok () → ∀ handle, own.desk handle = none →
        Settles Q (next (.ok handle)) ((own.put path []).hold handle (some (path, []))) taken)
  | .ask (.write handle data) next, own, taken =>
    ∃ path before, own.desk handle = some (path, before) ∧
      Settles Q (next (view.verdict .write path))
        (.unlessRefused (view.verdict .write path)
          (own.hold handle (some (path, before ++ data))) own) taken
  | .ask (.flush handle) next, own, taken =>
    ∃ path data, own.desk handle = some (path, data) ∧
      Settles Q (next (view.verdict .flush path))
        (.unlessRefused (view.verdict .flush path) (own.put path data) own) taken
  | .ask (.drop handle) next, own, taken =>
    ∃ path data, own.desk handle = some (path, data) ∧
      Settles Q (next ()) ((own.put path data).hold handle none) taken
  | .ask (.newOutput _) _, _, _ | .ask (.cancel _) _, _, _ => False
  | .ask action next, own, taken =>
    ∀ answer, view.Answers cancellations action answer → Settles Q (next answer) own taken

variable {view cancellations o places}
variable {Q : α → FileState → List String → Prop} {own : FileState} {taken : List String}

theorem settles_aside {action : Action} (aside : action.isAside = true)
    {next : action.Answer → Program α} :
    Settles view cancellations o places Q (.ask action next) own taken ↔
      ∀ answer, view.Answers cancellations action answer →
        Settles view cancellations o places Q (next answer) own taken := by
  cases action <;> first | exact Iff.rfl | cases aside

theorem settles_makeDirectories {path : Path} {next : Except IoError Unit → Program α} :
    Settles view cancellations o places Q (.ask (.makeDirectories path) next) own taken ↔
      Settles view cancellations o places Q (next (view.verdict .makeDirectories path)) own taken :=
  Iff.rfl

/-- A program settles if, wherever its first part settles, the rest does. -/
theorem Settles.bind {Q' : β → FileState → List String → Prop} {p : Program β} {k : β → Program α}
    (h : Settles view cancellations o places Q' p own taken)
    (later : ∀ {b own taken}, Q' b own taken →
      Settles view cancellations o places Q (k b) own taken) :
    Settles view cancellations o places Q (p.bind k) own taken := by
  induction p generalizing own taken with
  | done b => exact later h
  | ask action next ih =>
    cases action with
    | prepare id => exact ⟨h.1, ih _ h.2⟩
    | claim id name =>
      obtain ⟨same, rest⟩ := h
      refine ⟨same, ?_⟩
      by_cases known : name ∈ taken
      · simp only [known, if_true] at rest ⊢
        exact ih _ rest
      · simp only [known, if_false] at rest ⊢
        exact ⟨rest.1, ih _ rest.2⟩
    | create path =>
      obtain ⟨place, refused, created⟩ := h
      exact ⟨place, fun e because => ih _ (refused e because),
        fun done handle free => ih _ (created done handle free)⟩
    | write handle data =>
      obtain ⟨path, before, opened, rest⟩ := h
      exact ⟨path, before, opened, ih _ rest⟩
    | flush handle =>
      obtain ⟨path, data, opened, rest⟩ := h
      exact ⟨path, data, opened, ih _ rest⟩
    | drop handle =>
      obtain ⟨path, data, opened, rest⟩ := h
      exact ⟨path, data, opened, ih _ rest⟩
    | newOutput | cancel => exact h
    | makeDirectories path => exact ih _ h
    | _ => exact fun answer possible => ih answer (h answer possible)

theorem Settles.mono {Q' : α → FileState → List String → Prop} {p : Program α}
    (h : Settles view cancellations o places Q' p own taken)
    (weaker : ∀ {a own taken}, Q' a own taken → Q a own taken) :
    Settles view cancellations o places Q p own taken := by
  have result := h.bind (k := Program.done) weaker
  rwa [Program.bind_done] at result

/-- The program, begun with nothing, ends with a result and leaves files. -/
structure ComesTo (view : Host.View host) (cancellations : Cancellations) (o : Output)
    (places : Path → Prop) (p : Program α) (result : α) (contents : Path → Option Bytes) :
    Prop where
  settles : Settles view cancellations o places
    (fun a f _ => a = result ∧ f.contents = contents) p .empty []

/-- Saying the result in another way leaves the files as they are. -/
theorem ComesTo.map {p : Program β} {f : β → α} {result : β} {contents : Path → Option Bytes}
    (h : p.ComesTo view cancellations o places result contents) :
    (p.bind fun b => .done (f b)).ComesTo view cancellations o places (f result) contents :=
  ⟨h.settles.bind fun ⟨same, final⟩ => ⟨congrArg f same, final⟩⟩

/-- What is asked first leaves a program as it is, if it goes on with it whatever the answer. -/
theorem ComesTo.aside {action : Action} (aside : action.isAside = true)
    {next : action.Answer → Program α} {result : α} {contents : Path → Option Bytes}
    (h : ∀ answer, view.Answers cancellations action answer →
      (next answer).ComesTo view cancellations o places result contents) :
    (Program.ask action next).ComesTo view cancellations o places result contents :=
  ⟨(settles_aside aside).mpr fun answer possible => (h answer possible).settles⟩

end

end Program

end SchemaCompiler
