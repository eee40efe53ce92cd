import SchemaCompiler.Generator.Sample
import SchemaCompiler.Proofs.Output.Steps
import SchemaCompiler.Proofs.Pipeline.Calls
import SchemaCompiler.Proofs.Program.Asking
import SchemaCompiler.Proofs.Program.Performing
import SchemaCompiler.Sandbox

/-!
Generating with a single job.

The generators are called one after another, ordered by entry and then by document, until a call
fails or the context is found done before the next one. What a run tracks of calls and cancellations
changes only by noting a call and by cancelling, so a context that was cancelled during a call, at
whatever point of it, is found done behind that call.
-/

namespace SchemaCompiler

variable {σ α : Type}

/-! ## Calls and cancellations -/

namespace Action

/-- What an action notes of calls. -/
def notedIn : Action → List Call → List Call
  | call entry document, calls => ⟨entry, document⟩ :: calls
  | _, calls => calls

/-- What an action does to cancellations. -/
def cancelledIn : Action → Cancellations → Cancellations
  | cancel context, cancellations => cancellations.cancel context
  | _, cancellations => cancellations

def notesCall : Action → Bool
  | call _ _ => true
  | _ => false

theorem notedIn_of_not_notesCall {action : Action} (quiet : action.notesCall = false)
    (calls : List Call) : action.notedIn calls = calls := by
  cases action <;> first | rfl | cases quiet

/-- What is cancelled stays so. -/
theorem isCancelled_cancelledIn (action : Action) {context : CancelContext}
    {cancellations : Cancellations} (h : context.isCancelled cancellations = true) :
    context.isCancelled (action.cancelledIn cancellations) = true := by
  cases action with
  | cancel other =>
    simp only [CancelContext.isCancelled, List.contains_iff_mem] at h
    simp [CancelContext.isCancelled, cancelledIn, Cancellations.cancel, h]
  | _ => exact h

end Action

/-- A program that notes no calls. -/
abbrev Program.Quiet : Program α → Prop := Program.Only (!·.notesCall)

namespace Run

variable {host : Host (StateM σ)}

theorem perform_tracks {action : Action} {answer : action.Answer} {r r' : Run} {s s' : σ}
    (h : perform host action r s = ((answer, r'), s')) :
    r'.calls = action.notedIn r.calls ∧
      r'.cancellations = action.cancelledIn r.cancellations := by
  cases action with
  | prepare id =>
    rw [perform_prepare] at h
    split at h
    · cases h
      exact ⟨rfl, rfl⟩
    · split at h
      · cases h
        exact ⟨rfl, rfl⟩
      · cases h
        split <;> exact ⟨rfl, rfl⟩
  | claim id name =>
    rw [perform_claim] at h
    split at h
    · cases h
      exact ⟨rfl, rfl⟩
    · split at h <;> cases h <;> exact ⟨rfl, rfl⟩
  | locate executable =>
    rw [perform_locate] at h
    split at h <;> cases h <;> exact ⟨rfl, rfl⟩
  | log event =>
    rw [perform_log] at h
    cases h
    exact ⟨rfl, rfl⟩
  | run executable input limit =>
    rw [perform_run] at h
    split at h <;> cases h <;> exact ⟨rfl, rfl⟩
  | _ =>
    cases h
    exact ⟨rfl, rfl⟩

theorem execute_isCancelled {p : Program α} {a : α} {r r' : Run} {s s' : σ}
    {context : CancelContext} (cancelled : context.isCancelled r.cancellations = true)
    (h : execute host p r s = ((a, r'), s')) : context.isCancelled r'.cancellations = true := by
  induction p generalizing r s with
  | done b =>
    cases h
    exact cancelled
  | ask action next ih =>
    rcases hperform : perform host action r s with ⟨⟨answer, r₁⟩, s₁⟩
    rw [execute_ask next hperform] at h
    refine ih answer ?_ h
    rw [(perform_tracks hperform).2]
    exact action.isCancelled_cancelledIn cancelled

/-- A program that notes no calls leaves the calls as they are. -/
theorem execute_calls_of_quiet {p : Program α} (quiet : p.Quiet) {a : α}
    {r r' : Run} {s s' : σ} (h : execute host p r s = ((a, r'), s')) : r'.calls = r.calls := by
  induction quiet generalizing r s with
  | done b =>
    cases h
    rfl
  | @ask action kind next _ ih =>
    rcases hperform : perform host action r s with ⟨⟨answer, r₁⟩, s₁⟩
    rw [execute_ask next hperform] at h
    rw [ih answer h, (perform_tracks hperform).1]
    exact Action.notedIn_of_not_notesCall (by simpa using kind) r.calls

end Run

theorem Output.writeFile_quiet (o : Output) (name : String) (content : Bytes) :
    (o.writeFile name content).run.Quiet := by
  have opens : (o.openFile name).run.Quiet := by
    cases accepted : FileName.fault? name with
    | some fault =>
      rw [run_openFile_of_fault accepted]
      exact .done _
    | none =>
      have parent : (o.makeParent name).run.Quiet := by
        unfold makeParent
        repeat' split
        · exact only_adapt (.ask rfl .done)
        · exact .done _
        · exact .done _
      rw [run_openFile accepted]
      refine .ask rfl fun prepared => ?_
      rcases prepared with e | ⟨⟩
      · exact .done _
      refine parent.bind fun made => ?_
      rcases made with e | ⟨⟩
      · exact .done _
      refine .ask rfl fun claimed => ?_
      cases claimed with
      | false => exact .done _
      | true => exact .ask rfl fun created => by cases created <;> exact .done _
  rw [run_writeFile]
  refine opens.bind fun opened => ?_
  rcases opened with e | file
  · exact .done _
  have writes : (file.write content).run.Quiet := by
    rw [OutputFile.run_write]
    split
    · exact .done _
    · exact .ask rfl .done
  refine writes.bind fun written => ?_
  rcases written with e | ⟨⟩
  · exact .ask rfl fun _ => .ask rfl fun _ => .done _
  · rw [OutputFile.run_close]
    exact .ask rfl fun _ => .ask rfl fun _ => .done _

/-- Carrying a program out comes past a point where `q` is left of it. -/
inductive Program.Reaches (host : Host (StateM σ)) :
    Program α → Run → σ → Program α → Run → σ → Prop
  | here (p : Program α) (r : Run) (s : σ) : Reaches host p r s p r s
  | step {action : Action} {next : action.Answer → Program α} {answer : action.Answer}
    {q : Program α} {r r₁ r₂ : Run} {s s₁ s₂ : σ}
    (performed : Run.perform host action r s = ((answer, r₁), s₁))
    (later : Reaches host (next answer) r₁ s₁ q r₂ s₂) :
    Reaches host (.ask action next) r s q r₂ s₂

theorem Program.Reaches.execute {host : Host (StateM σ)} {p q : Program α} {r r₁ : Run} {s s₁ : σ}
    (h : Reaches host p r s q r₁ s₁) : Run.execute host p r s = Run.execute host q r₁ s₁ := by
  induction h with
  | here => rfl
  | step performed _ ih => rw [Run.execute_ask _ performed, ih]

namespace Pipeline

variable {host : Host (StateM σ)} {cancel : CancelContext}

/-! ## One call -/

/-- A call that was made, with how its generator ended. -/
structure MadeCall where
  pair : ActiveEntry × Document
  outcome : Except (Abort GeneratorError) Unit

/-- What the generator of an entry does for a document. -/
def generatorWork (cancel : CancelContext) (pair : ActiveEntry × Document) :
    Work GeneratorError Unit :=
  pair.1.entry.generator ⟨pair.1.output, cancel, pair.2, pair.1.entry.options⟩

def noteOf (pair : ActiveEntry × Document) : Call := ⟨pair.1.index, pair.2.name⟩

/-- The run where a generator begins. -/
def noted (pair : ActiveEntry × Document) (r : Run) : Run :=
  { r with calls := noteOf pair :: r.calls }

/-- The host where a generator begins: the clock was looked at, and the call was logged. -/
def announced (host : Host (StateM σ)) (pair : ActiveEntry × Document) (r : Run) (s : σ) : σ :=
  if r.logging then
    (host.log (.generating pair.1.entry.name pair.2.name pair.1.entry.directory) (host.now s).2).2
  else (host.now s).2

/-- The context is not done, the call is noted, and its generator ends so. -/
structure Makes (host : Host (StateM σ)) (cancel : CancelContext) (c : MadeCall) (r : Run) (s : σ)
    (r' : Run) (s' : σ) : Prop where
  undone : cancel.isDone r.cancellations (host.now s).1 = false
  ended : Run.execute host (generatorWork cancel c.pair).run (noted c.pair r)
    (announced host c.pair r s) = ((c.outcome, r'), s')

theorem execute_call_of_done {r : Run} {s : σ}
    (done : cancel.isDone r.cancellations (host.now s).1 = true) (pair : ActiveEntry × Document) :
    Run.execute host (call cancel pair.1 pair.2).run r s =
      ((.error (.failed .cancelled), r), (host.now s).2) := by
  refine (Run.execute_ask _ (Run.perform_isDone cancel r s)).trans ?_
  rw [done]
  rfl

theorem execute_call_of_makes {pair : ActiveEntry × Document}
    {outcome : Except (Abort GeneratorError) Unit} {r r' : Run} {s s' : σ}
    (h : Makes host cancel ⟨pair, outcome⟩ r s r' s') :
    Run.execute host (call cancel pair.1 pair.2).run r s = ((callOutcome outcome, r'), s') := by
  refine (Run.execute_ask _ (Run.perform_isDone cancel r s)).trans ?_
  rw [h.undone]
  refine (Run.execute_ask _ (Run.perform_log _ r _)).trans ?_
  refine (Run.execute_ask _ (rfl : Run.perform host (.call pair.1.index pair.2.name) r _ =
    (((), noted pair r), _))).trans ?_
  change Run.execute host (Work.mapError CompileError.generator (generatorWork cancel pair)).run
    (noted pair r) (announced host pair r s) = _
  rw [run_mapError_generator]
  exact Run.execute_bind _ _ h.ended

/-- No generator ends a call the way a context does that is done before it. -/
theorem callOutcome_ne_cancelled (outcome : Except (Abort GeneratorError) Unit) :
    callOutcome outcome ≠ .error (.failed .cancelled) := by
  rcases outcome with (e | p) | ⟨⟩ <;> nofun

/-! ## Calls one after another -/

/-- The calls are made one after another. -/
inductive MakesAll (host : Host (StateM σ)) (cancel : CancelContext) :
    List MadeCall → Run → σ → Run → σ → Prop
  | nil (r : Run) (s : σ) : MakesAll host cancel [] r s r s
  | cons {c : MadeCall} {called : List MadeCall} {r r₁ r' : Run} {s s₁ s' : σ}
    (first : Makes host cancel c r s r₁ s₁) (rest : MakesAll host cancel called r₁ s₁ r' s') :
    MakesAll host cancel (c :: called) r s r' s'

theorem MakesAll.behind {front back : List MadeCall} {r r₀ r' : Run} {s s₀ s' : σ}
    (h : MakesAll host cancel (front ++ back) r s r' s')
    (before : MakesAll host cancel front r s r₀ s₀) : MakesAll host cancel back r₀ s₀ r' s' := by
  induction before with
  | nil => exact h
  | cons first _ ih =>
    cases h with
    | cons again rest =>
      cases first.ended.symm.trans again.ended
      exact ih rest

/-- A call during which the context is cancelled is the last one. -/
theorem MakesAll.last_of_cancelled {front back : List MadeCall} {c : MadeCall}
    {r r₀ r₁ r' : Run} {s s₀ s₁ s' : σ} {q : Program (Except (Abort GeneratorError) Unit)}
    (h : MakesAll host cancel (front ++ c :: back) r s r' s')
    (before : MakesAll host cancel front r s r₀ s₀)
    (during : (generatorWork cancel c.pair).run.Reaches host (noted c.pair r₀)
      (announced host c.pair r₀ s₀) q r₁ s₁)
    (cancelled : cancel.isCancelled r₁.cancellations = true) : back = [] := by
  cases h.behind before with
  | cons made rest =>
    have still := Run.execute_isCancelled cancelled (during.execute.symm.trans made.ended)
    cases rest with
    | nil => rfl
    | cons next _ =>
      have undone := next.undone
      simp [CancelContext.isDone, still] at undone

/-- The calls are noted, the last one first. -/
theorem MakesAll.calls {called : List MadeCall} {r r' : Run} {s s' : σ}
    (h : MakesAll host cancel called r s r' s')
    (quiet : ∀ c ∈ called, (generatorWork cancel c.pair).run.Quiet) :
    r'.calls = (called.map fun c => noteOf c.pair).reverse ++ r.calls := by
  induction h with
  | nil => rfl
  | cons first _ ih =>
    rw [List.forall_mem_cons] at quiet
    rw [ih quiet.2, Run.execute_calls_of_quiet quiet.1 first.ended]
    simp [noted]

/-- What calls that are made one after another come to, with the place of the host and the run behind
the last of them. -/
structure OneAfterAnother (host : Host (StateM σ)) (cancel : CancelContext)
    (ahead : List (ActiveEntry × Document)) (r : Run) (s : σ)
    (result : Except (Abort CompileError) Unit) (r' : Run) (s' : σ) (called : List MadeCall)
    (r₁ : Run) (s₁ : σ) : Prop where
  makes : MakesAll host cancel called r s r₁ s₁
  ordered : called.map (·.pair) <+: ahead
  /-- A call that fails is the last one, and its error is the result. -/
  failed : ∀ front c back, called = front ++ c :: back → c.outcome ≠ .ok () →
    back = [] ∧ result = callOutcome c.outcome
  /-- Calls that are left although none failed are left because the context was done. -/
  stopped : (∀ c ∈ called, c.outcome = .ok ()) → called.map (·.pair) ≠ ahead →
    cancel.isDone r₁.cancellations (host.now s₁).1 = true ∧ result = .error (.failed .cancelled)
  ended : result = .ok () ↔ called.map (·.pair) = ahead ∧ ∀ c ∈ called, c.outcome = .ok ()
  /-- Behind the last call there is at most a look at the clock. -/
  left : r' = r₁ ∧ (s' = s₁ ∨ s' = (host.now s₁).2)

namespace OneAfterAnother

variable {ahead : List (ActiveEntry × Document)} {pair : ActiveEntry × Document}
  {r r₁ r₂ r' : Run} {s s₁ s₂ s' : σ}

theorem nothing (r : Run) (s : σ) :
    OneAfterAnother host cancel [] r s (.ok ()) r s [] r s where
  makes := .nil r s
  ordered := List.prefix_refl _
  failed front c back split := by simp at split
  stopped _ some := absurd rfl some
  ended := by simp
  left := ⟨rfl, .inl rfl⟩

theorem done (undone : cancel.isDone r.cancellations (host.now s).1 = true) :
    OneAfterAnother host cancel (pair :: ahead) r s (.error (.failed .cancelled)) r (host.now s).2
      [] r s where
  makes := .nil r s
  ordered := List.nil_prefix
  failed front c back split := by simp at split
  stopped _ _ := ⟨undone, rfl⟩
  ended := by simp
  left := ⟨rfl, .inr rfl⟩

theorem failure {e : Abort GeneratorError}
    (makes : Makes host cancel ⟨pair, .error e⟩ r s r₁ s₁) :
    OneAfterAnother host cancel (pair :: ahead) r s (callOutcome (.error e)) r₁ s₁
      [⟨pair, .error e⟩] r₁ s₁ where
  makes := .cons makes (.nil r₁ s₁)
  ordered := by simp
  failed front c back split _ := by
    obtain ⟨rfl, rfl, rfl⟩ : front = [] ∧ c = ⟨pair, .error e⟩ ∧ back = [] := by
      simpa [List.singleton_eq_append_iff] using split
    exact ⟨rfl, rfl⟩
  stopped well := by simp at well
  ended := by
    constructor
    · intro well
      cases well
    · rintro ⟨-, all⟩
      cases all _ (List.mem_singleton_self _)
  left := ⟨rfl, .inl rfl⟩

theorem cons {result : Except (Abort CompileError) Unit} {called : List MadeCall}
    (makes : Makes host cancel ⟨pair, .ok ()⟩ r s r₁ s₁)
    (rest : OneAfterAnother host cancel ahead r₁ s₁ result r' s' called r₂ s₂) :
    OneAfterAnother host cancel (pair :: ahead) r s result r' s' (⟨pair, .ok ()⟩ :: called)
      r₂ s₂ where
  makes := .cons makes rest.makes
  ordered := by simpa using rest.ordered
  failed front c back split bad := by
    cases front with
    | nil =>
      cases split
      exact absurd rfl bad
    | cons first front =>
      cases split
      exact rest.failed front c back rfl bad
  stopped well some := rest.stopped (by simpa using well) (by simpa using some)
  ended := by simpa using rest.ended
  left := rest.left

end OneAfterAnother

theorem calls_one_after_another {ahead : List (ActiveEntry × Document)} {r r' : Run} {s s' : σ}
    {result : Except (Abort CompileError) Unit}
    (h : Run.execute host ((ahead.map fun pair => call cancel pair.1 pair.2).forM id).run r s =
      ((result, r'), s')) :
    ∃ called r₁ s₁, OneAfterAnother host cancel ahead r s result r' s' called r₁ s₁ := by
  induction ahead generalizing r s with
  | nil =>
    cases h
    exact ⟨[], _, _, .nothing _ _⟩
  | cons pair ahead ih =>
    rw [List.map_cons] at h
    cases done : cancel.isDone r.cancellations (host.now s).1 with
    | true =>
      rw [Run.execute_forM_cons id (call cancel pair.1 pair.2) _
        (execute_call_of_done done pair)] at h
      cases h
      exact ⟨[], _, _, .done done⟩
    | false =>
      rcases ended : Run.execute host (generatorWork cancel pair).run (noted pair r)
        (announced host pair r s) with ⟨⟨outcome, r₁⟩, s₁⟩
      have makes : Makes host cancel ⟨pair, outcome⟩ r s r₁ s₁ := ⟨done, ended⟩
      rw [Run.execute_forM_cons id (call cancel pair.1 pair.2) _
        (execute_call_of_makes makes)] at h
      cases outcome with
      | error e =>
        cases h
        exact ⟨_, _, _, .failure makes⟩
      | ok =>
        obtain ⟨called, r₂, s₂, rest⟩ := ih h
        exact ⟨_, r₂, s₂, rest.cons makes⟩

/-! ## Generating -/

theorem map_pairs {β γ : Type} (f : β → γ) (entries : List β) (docs : List Document) :
    (pairs entries docs).map (fun pair => (f pair.1, pair.2)) = pairs (entries.map f) docs := by
  simp [pairs, List.map_flatMap, List.flatMap_map, Function.comp_def]

/-- With a single job the calls made are the first of the activated entries with the documents, in
order, up to the first failure or to where the context is done. None follows a call during which the
context is cancelled, and files stay as the last call has left them. -/
theorem generate_one_after_another (host : Host (StateM σ)) (schedule : List Nat)
    {settings : PipelineSettings} (single : settings.jobs = 1) (cancel : CancelContext)
    (entries : List (Entry Generator)) (docs : List Document) {r r' : Run} {s s' : σ}
    {result : Except (Abort CompileError) Unit}
    (h : generate host schedule settings cancel entries docs r s = ((result, r'), s')) :
    let active := actives 0 r.outputs.length entries
    ∃ called r₁ s₁,
      OneAfterAnother host cancel (pairs active docs) (opened r active) s result r' s' called r₁ s₁ ∧
      called.map (fun c => (c.pair.1.entry, c.pair.2)) <+:
        pairs (entries.filter (·.activated)) docs ∧
      (∀ front c back r₀ s₀ q r₂ s₂, called = front ++ c :: back →
        MakesAll host cancel front (opened r active) s r₀ s₀ →
        (generatorWork cancel c.pair).run.Reaches host (noted c.pair r₀)
          (announced host c.pair r₀ s₀) q r₂ s₂ →
        cancel.isCancelled r₂.cancellations = true → back = []) ∧
      (∀ {F : Type} (stored : σ → F), (∀ s, stored (host.now s).2 = stored s) →
        stored s' = stored s₁) ∧
      ((∀ pair ∈ pairs active docs,
          (generatorWork cancel pair).run.Quiet) →
        r'.calls = (called.map fun c => noteOf c.pair).reverse ++ r.calls) := by
  intro active
  rw [generate_eq] at h
  dsimp only at h
  rw [if_neg (by omega), calls_eq] at h
  obtain ⟨called, r₁, s₁, made⟩ := calls_one_after_another h
  refine ⟨called, r₁, s₁, made, ?_, ?_, fun stored kept => ?_, fun quiet => ?_⟩
  · have ordered := made.ordered.map fun pair => (pair.1.entry, pair.2)
    rw [map_pairs, map_entry_actives, List.map_map] at ordered
    exact ordered
  · rintro front c back r₀ s₀ q r₂ s₂ rfl
    exact made.makes.last_of_cancelled
  · rcases made.left.2 with same | same
    · rw [same]
    · rw [same, kept]
  · have called_quiet : ∀ c ∈ called,
        (generatorWork cancel c.pair).run.Quiet :=
      fun c member => quiet _ (made.ordered.subset (List.mem_map_of_mem member))
    rw [made.left.1, made.makes.calls called_quiet]
    rfl

/-- The second of three entries is not activated, and the third one cancels the run in each call. -/
def entriesWithCancelling : List (Entry Generator) :=
  [⟨Behaviour.write.generator "one", "one", ⟨"one"⟩, [], true⟩,
    ⟨Behaviour.write.generator "idle", "idle", ⟨"idle"⟩, [], false⟩,
    ⟨Behaviour.cancel.generator "two", "two", ⟨"two"⟩, [], true⟩]

/-- A run that ended because it was cancelled, as a test that can be carried out. -/
def isCancelled : Except (Abort CompileError) Unit → Bool
  | .error (.failed .cancelled) => true
  | _ => false

/-- The call that cancels ends well and writes its file; the call behind it is not made. -/
theorem cancelled_before_last_call :
    let ended := generate (Sandbox.host Sandbox.memoryFiles) [] ⟨[], 1⟩ ⟨0, none⟩
      entriesWithCancelling [⟨"a", "a.gql", []⟩, ⟨"b", "b.gql", []⟩] (.start .empty) .empty
    ended.1.1 = .error (.failed .cancelled) ∧
      ended.1.2.calls = [⟨2, "a"⟩, ⟨0, "b"⟩, ⟨0, "a"⟩] ∧
      ended.2.memory.paths = [⟨"one/a.txt"⟩, ⟨"one/b.txt"⟩, ⟨"two/a.txt"⟩] ∧
      ∃ called : List MadeCall, (called.map fun c => noteOf c.pair).reverse = ended.1.2.calls ∧
        ∀ c ∈ called, c.outcome = .ok () := by
  intro ended
  have stopped : isCancelled ended.1.1 = true := by decide +kernel
  have calls : ended.1.2.calls = [⟨2, "a"⟩, ⟨0, "b"⟩, ⟨0, "a"⟩] := by decide +kernel
  have paths : ended.2.memory.paths = [⟨"one/a.txt"⟩, ⟨"one/b.txt"⟩, ⟨"two/a.txt"⟩] := by
    decide +kernel
  -- the run is taken apart without carrying it out
  have parts (x : (Except (Abort CompileError) Unit × Run) × Sandbox) :
      x = ((x.1.1, x.1.2), x.2) := rfl
  obtain ⟨called, r₁, s₁, made, -, -, -, noted⟩ := generate_one_after_another
    (Sandbox.host Sandbox.memoryFiles) [] (Eq.refl 1) ⟨0, none⟩ entriesWithCancelling _ (parts ended)
  clear_value ended
  have cancelled : ended.1.1 = .error (.failed .cancelled) := by
    unfold isCancelled at stopped
    split at stopped
    · assumption
    · cases stopped
  have quiet : ∀ pair ∈ pairs (actives 0 0 entriesWithCancelling)
      [⟨"a", "a.gql", []⟩, ⟨"b", "b.gql", []⟩], (generatorWork ⟨0, none⟩ pair).run.Quiet := by
    intro pair member
    have writes (a : Assignment) (name : String) : (Behaviour.writeName name a).run.Quiet :=
      only_adapt (only_adapt (a.output.writeFile_quiet _ _))
    simp only [entriesWithCancelling, actives, pairs, if_true, if_false, Bool.false_eq_true,
      List.flatMap_cons, List.flatMap_nil, List.map_cons, List.map_nil, List.cons_append,
      List.nil_append, List.mem_cons, List.not_mem_nil, or_false] at member
    rcases member with rfl | rfl | rfl | rfl
    · exact only_adapt (writes _ _)
    · exact only_adapt (writes _ _)
    · exact only_adapt (only_bind (only_perform rfl) fun _ => writes _ _)
    · exact only_adapt (only_bind (only_perform rfl) fun _ => writes _ _)
  refine ⟨cancelled, calls, paths, called, ?_, ?_⟩
  · rw [noted quiet]
    exact (List.append_nil _).symm
  · intro c member
    obtain ⟨front, back, split⟩ := List.append_of_mem member
    refine Classical.byContradiction fun bad => ?_
    exact callOutcome_ne_cancelled _ ((made.failed front c back split bad).2.symm.trans cancelled)

end Pipeline

end SchemaCompiler
