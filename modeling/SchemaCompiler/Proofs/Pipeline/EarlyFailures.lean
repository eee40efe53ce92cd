import SchemaCompiler.Proofs.FileSystem.Recording
import SchemaCompiler.Proofs.Pipeline.Calls
import SchemaCompiler.Proofs.Pipeline.Loading
import SchemaCompiler.Generator.Sample
import SchemaCompiler.Sandbox

/-!
Failures before generation.

A run first reads the command line, then loads its inputs, and only then generates. The errors of
generating are a kind of their own, so a run that ends with another one has called no generator; and
since loading only looks at files, it has left all files as they were. Conversely, a generator is
called only behind the last input and behind the check.
-/

namespace SchemaCompiler

variable {σ α F : Type}

/-! ## Errors of generating -/

namespace CompileError

/-- Errors that arise where a generator is called. -/
def IsOfGenerating : CompileError → Prop
  | generator _ | cancelled | internalFault _ => True
  | _ => False

/-- What was wrong before anything could be generated: with the command line, with the switches of
generators, with the source of an input, with the schema, or with reading an input. -/
def IsEarly (e : CompileError) : Prop :=
  e.kind ∈ [ErrorKind.invalidInput, .duplicateGenerator, .danglingOptions, .parseError,
      .typeCheckError] ∨
    ∃ path error, e = .unreadable path error

theorem IsEarly.not_isOfGenerating {e : CompileError} (early : e.IsEarly) :
    ¬ e.IsOfGenerating := by
  intro generating
  rcases early with early | ⟨path, error, rfl⟩
  · cases e with
    | generator e =>
      obtain ⟨generator, document, cause⟩ := e
      rcases cause with _ | _ | _ | (_ | _ | _) | _ | _ <;>
        simp [kind, GenerateError.kind] at early
    | cancelled | internalFault fault => simp [kind] at early
    | _ => exact generating
  · exact generating

end CompileError

namespace Pipeline

open Program (EndsWith)
open CompileError (IsOfGenerating)

variable {host : Host (StateM σ)}

/-- Work whose errors, but not its panics, are errors of generating. -/
def FailsGenerating (result : Except (Abort CompileError) α) : Prop :=
  ∀ e, result = .error (.failed e) → IsOfGenerating e

theorem call_ends (cancel : CancelContext) (active : ActiveEntry) (doc : Document) :
    EndsWith FailsGenerating (call cancel active doc).run := by
  refine .ask fun done => ?_
  cases done with
  | true =>
    refine .done fun e same => ?_
    cases same
    trivial
  | false =>
    refine .ask fun _ => .ask fun _ => ?_
    change EndsWith FailsGenerating (Work.mapError CompileError.generator _).run
    rw [run_mapError_generator]
    refine EndsWith.bind (Program.ends_anyhow _) fun outcome _ => .done fun e same => ?_
    rcases outcome with (cause | panic) | ⟨⟩ <;> cases same
    trivial

theorem contained_failsGenerating {result : Except (Abort CompileError) α}
    (h : FailsGenerating result) {e : CompileError}
    (same : contained .internalFault result = .error e) : IsOfGenerating e := by
  rcases result with (cause | ⟨payload, _ | location⟩) | a <;> cases same
  · exact h _ rfl
  · trivial
  · trivial

/-- Generating fails with errors of generating. -/
theorem generate_failsGenerating {schedule : List Nat} {settings : PipelineSettings}
    {cancel : CancelContext} {entries : List (Entry Generator)} {docs : List Document} {r r' : Run}
    {s s' : σ} {result : Except (Abort CompileError) Unit}
    (h : generate host schedule settings cancel entries docs r s = ((result, r'), s')) :
    FailsGenerating result := by
  obtain ⟨order, made, ended, begun, ran, reported, -⟩ := generate_eq_executeAll h
  have each : ∀ work ∈ made, EndsWith FailsGenerating work.run := by
    intro work member
    have among := begun.subset member
    rw [calls_eq] at among
    obtain ⟨pair, -, rfl⟩ := List.mem_map.mp among
    exact call_ends cancel pair.1 pair.2
  have ends := Run.executeAll_ends (List.forall_mem_map.mpr each) ran
  rintro e rfl
  obtain ⟨last, member, inside⟩ := List.mem_map.mp (firstError_mem reported.symm)
  exact contained_failsGenerating (ends last member) inside

end Pipeline

/-! ## Looking at files -/

/-- Calls that change nothing. -/
def FileCall.IsLook : FileCall → Prop
  | read _ | isFile _ => True
  | _ => False

/-- Looking at files, and logging, leave what `stored` shows of a host as it is. -/
structure Host.LooksKeep (host : Host (StateM σ)) (stored : σ → F) : Prop where
  read : ∀ path s, stored (host.files.read path s).2 = stored s
  isFile : ∀ path s, stored (host.files.isFile path s).2 = stored s
  log : ∀ event s, stored (host.log event s).2 = stored s

/-- What a stretch of a run did that only looked: no generator was called, no file was touched. -/
structure OnlyLooked (stored : σ → F) (r r' : Run) (s s' : σ) (calls calls' : List FileCall) :
    Prop where
  uncalled : r'.calls = r.calls
  kept : stored s' = stored s
  looks : ∃ more, calls' = calls ++ more ∧ ∀ call ∈ more, call.IsLook

namespace OnlyLooked

variable {stored : σ → F} {r r₁ r₂ : Run} {s s₁ s₂ : σ} {calls calls₁ calls₂ : List FileCall}

theorem refl : OnlyLooked stored r r s s calls calls :=
  ⟨rfl, rfl, [], by simp⟩

theorem trans (first : OnlyLooked stored r r₁ s s₁ calls calls₁)
    (then' : OnlyLooked stored r₁ r₂ s₁ s₂ calls₁ calls₂) :
    OnlyLooked stored r r₂ s s₂ calls calls₂ := by
  obtain ⟨more, rfl, looks⟩ := first.looks
  obtain ⟨more', rfl, looks'⟩ := then'.looks
  refine ⟨then'.uncalled.trans first.uncalled, then'.kept.trans first.kept, more ++ more', ?_, ?_⟩
  · rw [List.append_assoc]
  · rw [List.forall_mem_append]
    exact ⟨looks, looks'⟩

end OnlyLooked

namespace Run

open Program (Looks)

variable {host : Host (StateM σ)} {stored : σ → F}

/-- Logging takes no note of a file. -/
theorem perform_log_recorded (keep : host.LooksKeep stored) (event : Event) (r : Run) (s : σ)
    (calls : List FileCall) :
    ∃ s', perform host.recorded (.log event) r (s, calls) = (((), r), (s', calls)) ∧
      stored s' = stored s := by
  cases logging : r.logging with
  | false =>
    refine ⟨s, ?_, rfl⟩
    rw [perform_log, logging]
    rfl
  | true =>
    refine ⟨(host.log event s).2, ?_, keep.log event s⟩
    rw [perform_log, logging]
    rfl

theorem perform_look (keep : host.LooksKeep stored) {action : Action} (look : action.isLook = true)
    {answer : action.Answer} {r r' : Run} {s s' : σ} {calls calls' : List FileCall}
    (h : perform host.recorded action r (s, calls) = ((answer, r'), (s', calls'))) :
    OnlyLooked stored r r' s s' calls calls' := by
  cases action with
  | read path =>
    cases h
    exact ⟨rfl, keep.read path s, _, rfl, by simp [FileCall.IsLook]⟩
  | isFile path =>
    cases h
    exact ⟨rfl, keep.isFile path s, _, rfl, by simp [FileCall.IsLook]⟩
  | log event =>
    obtain ⟨s₁, logged, kept⟩ := perform_log_recorded keep event r s calls
    cases logged.symm.trans h
    exact ⟨rfl, kept, [], (List.append_nil _).symm, nofun⟩
  | _ => cases look

/-- A program that only looks at files changes none and calls no generator. -/
theorem execute_recorded_looks (keep : host.LooksKeep stored) {α : Type} {p : Program α}
    (looks : Looks p) {a : α} {r r' : Run} {s s' : σ} {calls calls' : List FileCall}
    (h : execute host.recorded p r (s, calls) = ((a, r'), (s', calls'))) :
    OnlyLooked stored r r' s s' calls calls' := by
  induction looks generalizing r s calls with
  | done b =>
    cases h
    exact .refl
  | @ask action look next _ ih =>
    rcases hperform : perform host.recorded action r (s, calls) with ⟨⟨answer, r₁⟩, s₁, calls₁⟩
    rw [execute_ask next hperform] at h
    exact (perform_look keep look hperform).trans (ih answer h)

end Run

namespace Pipeline

open Program (EndsWith)

variable {host : Host (StateM σ)}

/-! ## Inputs that were read -/

/-- Finds the place of an input and notes that it is read there. -/
def locateInput (importPaths : List Path) (input : String) : Program Path := do
  let path ← resolve importPaths input
  Program.perform (.log (.parsing input path))
  return path

/-- The inputs were read one after another: each was found at a place, what the file system gave out
there is text, and the text parses to the next document. -/
inductive InputsRead (host : Host (StateM σ)) (importPaths : List Path) :
    DocumentNames → List String → List Document → Run → σ → Run → σ → Prop
  | nil (names : DocumentNames) (r : Run) (s : σ) :
    InputsRead host importPaths names [] [] r s r s
  | cons {names names' : DocumentNames} {input source : String} {inputs : List String}
    {doc : Document} {docs : List Document} {path : Path} {bytes : Bytes} {r r₁ r' : Run}
    {s s₁ s₂ s' : σ}
    (found : Run.execute host (locateInput importPaths input) r s = ((path, r₁), s₁))
    (given : host.files.read path s₁ = (.ok bytes, s₂))
    (text : Text.decode? bytes = some source)
    (parsed : names.parse input source = (.ok doc, names'))
    (rest : InputsRead host importPaths names' inputs docs r₁ s₂ r' s') :
    InputsRead host importPaths names (input :: inputs) (doc :: docs) r s r' s'

theorem run_lift_bind {α β ε : Type} (p : Program α) (k : α → ExceptT ε Program β) :
    ((p : ExceptT ε Program α) >>= k).run = p.bind fun a => (k a).run := by
  change (p.bind fun a => .done (Except.ok a)).bind _ = _
  rw [Program.bind_assoc]
  rfl

/-- What reading the place of an input comes to. -/
def parseContent (names : DocumentNames) (input : String) (path : Path) :
    Except IoError Bytes → Except CompileError (Document × DocumentNames)
  | .error e => .error (.unreadable path e)
  | .ok bytes =>
    match Text.decode? bytes with
    | none => .error (.parse ⟨input, .notText⟩)
    | some source =>
      match names.parse input source with
      | (.error e, _) => .error (.parse e)
      | (.ok doc, names) => .ok (doc, names)

/-- An input is located, then read, then parsed. -/
theorem run_parseInput (importPaths : List Path) (names : DocumentNames) (input : String) :
    (parseInput importPaths names input).run =
      (locateInput importPaths input).bind fun path =>
        .ask (.read path) fun content => .done (parseContent names input path content) := by
  rw [parseInput]
  simp only [run_lift_bind]
  change (resolve importPaths input).bind _ = ((resolve importPaths input).bind _).bind _
  rw [Program.bind_assoc]
  congr 1
  funext path
  refine congrArg (Program.ask _) (funext fun _ => congrArg (Program.ask _) (funext fun content => ?_))
  rcases content with e | bytes
  · rfl
  · simp only [parseContent]
    change ExceptT.run (match Text.decode? bytes with
      | none => _
      | some source => _) = _
    cases Text.decode? bytes with
    | none => rfl
    | some source =>
      simp only
      rcases names.parse input source with ⟨e | doc, names⟩ <;> rfl

theorem of_parseContent {names names' : DocumentNames} {input : String} {path : Path}
    {given : Except IoError Bytes} {doc : Document}
    (h : parseContent names input path given = .ok (doc, names')) :
    ∃ bytes source, given = .ok bytes ∧ Text.decode? bytes = some source ∧
      names.parse input source = (.ok doc, names') := by
  rcases given with e | bytes
  · cases h
  · simp only [parseContent] at h
    cases text : Text.decode? bytes with
    | none =>
      rw [text] at h
      cases h
    | some source =>
      rw [text] at h
      rcases parsed : names.parse input source with ⟨e | doc', names''⟩ <;>
        simp only [parsed] at h <;> cases h
      exact ⟨bytes, source, rfl, text, parsed⟩

theorem InputsRead.of_parseInputs {importPaths : List Path} {names : DocumentNames}
    {inputs : List String} {docs : List Document} {r r' : Run} {s s' : σ}
    (h : Run.execute host (parseInputs importPaths names inputs).run r s = ((.ok docs, r'), s')) :
    InputsRead host importPaths names inputs docs r s r' s' := by
  induction inputs generalizing names docs r s with
  | nil =>
    cases h
    exact .nil names _ _
  | cons input inputs ih =>
    rcases hplace : Run.execute host (locateInput importPaths input) r s with ⟨⟨path, r₁⟩, s₁⟩
    rcases hread : host.files.read path s₁ with ⟨given, s₂⟩
    have read : Run.perform host (.read path) r₁ s₁ = ((given, r₁), s₂) := by
      change (((host.files.read path s₁).1, r₁), (host.files.read path s₁).2) = _
      rw [hread]
    have first : Run.execute host (parseInput importPaths names input).run r s =
        ((parseContent names input path given, r₁), s₂) := by
      rw [run_parseInput, Run.execute_bind _ _ hplace, Run.execute_ask _ read]
      rfl
    rw [parseInputs] at h
    cases content : parseContent names input path given with
    | error e =>
      rw [content] at first
      cases (Run.execute_bind_error _ first).symm.trans h
    | ok parsed =>
      obtain ⟨doc, names'⟩ := parsed
      rw [content] at first
      have h := (Run.execute_bind_ok _ first).symm.trans h
      rcases hrest : Run.execute host (parseInputs importPaths names' inputs).run r₁ s₂ with
        ⟨⟨rest, r₂⟩, s₃⟩
      cases rest with
      | error e => cases (Run.execute_bind_error _ hrest).symm.trans h
      | ok more =>
        cases (Run.execute_bind_ok _ hrest).symm.trans h
        obtain ⟨bytes, source, rfl, text, parsed⟩ := of_parseContent content
        exact .cons hplace hread text parsed (ih hrest)

/-- Loading ends well only when all inputs were read and the documents passed the check. -/
theorem inputsRead_of_load {settings : PipelineSettings} {inputs : List String}
    {docs : List Document} {r r' : Run} {s s' : σ}
    (h : Run.execute host (load settings inputs).run r s = ((.ok docs, r'), s')) :
    InputsRead host settings.importPaths .empty inputs docs r s r' s' ∧
      checkDocuments docs = [] := by
  rw [load] at h
  cases wrong : inputsError? inputs with
  | some e =>
    rw [wrong] at h
    cases h
  | none =>
    rw [wrong] at h
    change Run.execute host (parseInputs settings.importPaths .empty inputs >>= _).run r s = _ at h
    rcases hread : Run.execute host (parseInputs settings.importPaths .empty inputs).run r s with
      ⟨⟨read, r₁⟩, s₁⟩
    cases read with
    | error e => cases (Run.execute_bind_error _ hread).symm.trans h
    | ok parsed =>
      have h := (Run.execute_bind_ok _ hread).symm.trans h
      dsimp only at h
      cases clean : (checkDocuments parsed).isEmpty with
      | true =>
        rw [clean] at h
        cases h
        exact ⟨.of_parseInputs hread, List.isEmpty_iff.mp clean⟩
      | false =>
        rw [clean, if_neg Bool.false_ne_true] at h
        have fails : Program.EndsWith
            (fun result => result = .error (.typeCheck (checkDocuments parsed)))
            (liftM (Program.perform (.log (.checkFailed (checkDocuments parsed).length))) >>=
              fun () => do throw (.typeCheck (checkDocuments parsed)); pure parsed :
              ExceptT CompileError Program (List Document)).run := .ask fun _ => .done rfl
        cases Run.execute_ends fails h

/-- An input of another kind is met before any file is looked at. -/
theorem execute_load_of_unknown (host : Host (StateM σ)) (settings : PipelineSettings)
    {inputs : List String} {input : String} (member : input ∈ inputs)
    (unknown : hasSourceExtension input = false)
    (r : Run) (s : σ) :
    ∃ e, Run.execute host (load settings inputs).run r s = ((.error e, r), s) := by
  have wrong : (inputsError? inputs).isSome := by
    have found : (inputs.find? fun input => !hasSourceExtension input).isSome := by
      rw [List.find?_isSome]
      exact ⟨input, member, by simp [unknown]⟩
    rw [inputsError?]
    split
    · rfl
    · rwa [Option.isSome_map]
  obtain ⟨e, same⟩ := Option.isSome_iff_exists.mp wrong
  refine ⟨e, ?_⟩
  rw [load, same]
  rfl

/-! ## Loading that fails -/

/-- A result that is no error of generating. -/
def FailsEarly {α : Type} (result : Except CompileError α) : Prop :=
  ∀ e, result = .error e → ¬ e.IsOfGenerating

theorem failsEarly_ok {α : Type} (a : α) : FailsEarly (.ok a) := nofun

theorem parseInput_failsEarly (importPaths : List Path) (names : DocumentNames) (input : String) :
    EndsWith FailsEarly (parseInput importPaths names input).run := by
  rw [run_parseInput]
  refine EndsWith.bind (Program.ends_anyhow _) fun path _ => .ask fun content => .done ?_
  intro e failed
  unfold parseContent at failed
  split at failed
  · cases failed
    exact id
  split at failed
  · cases failed
    exact id
  split at failed
  · cases failed
    exact id
  · cases failed

theorem failsEarly_bind {α β : Type} {p : ExceptT CompileError Program β}
    {k : β → ExceptT CompileError Program α} (first : EndsWith FailsEarly p.run)
    (later : ∀ b, EndsWith FailsEarly (k b).run) : EndsWith FailsEarly (p >>= k).run :=
  Program.endsWith_bind first later

theorem parseInputs_failsEarly (importPaths : List Path) (names : DocumentNames)
    (inputs : List String) : EndsWith FailsEarly (parseInputs importPaths names inputs).run := by
  induction inputs generalizing names with
  | nil => exact .done (failsEarly_ok [])
  | cons input inputs ih =>
    refine failsEarly_bind (parseInput_failsEarly importPaths names input) fun parsed => ?_
    exact failsEarly_bind (ih parsed.2) fun docs => .done (failsEarly_ok _)

theorem inputsError?_failsEarly {inputs : List String} {e : CompileError}
    (wrong : inputsError? inputs = some e) : ¬ e.IsOfGenerating := by
  unfold inputsError? at wrong
  split at wrong
  · cases wrong
    exact id
  · obtain ⟨input, -, rfl⟩ := Option.map_eq_some_iff.mp wrong
    exact id

/-- Loading fails with errors of its own. -/
theorem load_failsEarly (settings : PipelineSettings) (inputs : List String) :
    EndsWith FailsEarly (load settings inputs).run := by
  rw [load]
  cases wrong : inputsError? inputs with
  | some e =>
    refine .done fun e same => ?_
    cases same
    exact inputsError?_failsEarly wrong
  | none =>
    refine failsEarly_bind (parseInputs_failsEarly _ _ inputs) fun docs => ?_
    dsimp only
    split
    · exact .done (failsEarly_ok docs)
    · refine .ask fun _ => .done fun e same => ?_
      cases same
      exact id

theorem load_nil_fails (host : Host (StateM σ)) (settings : PipelineSettings) (r : Run) (s : σ) :
    Run.execute host (load settings []).run r s =
      ((.error (.invalidInput "no input files"), r), s) := rfl

end Pipeline

/-! ## Runs -/

namespace Compiler

open CompileError (IsEarly)
open Pipeline

variable {host : Host (StateM σ)} {stored : σ → F}

/-- What was done before generating, and what came after it. -/
theorem run_after_loading (keep : host.LooksKeep stored) {c : Compiler} {schedule : List Nat}
    {args : List String} {cancel : CancelContext} {r r' : Run} {s s' : σ} {calls : List FileCall}
    {result : Except CompileError (List Document)} {line : CommandLine}
    {entries : List (Entry Generator)} (configured : c.configure args = .ok (line, entries))
    (h : c.run host.recorded schedule args cancel r (s, []) = ((result, r'), (s', calls))) :
    ∃ r₀ s₀ loaded r₁ s₁ looks,
      Run.execute host.recorded (load ⟨line.importPaths, max line.jobs 1⟩ line.files).run r₀
        (s₀, []) = ((loaded, r₁), (s₁, looks)) ∧
      r₀.calls = r.calls ∧ OnlyLooked stored r r₁ s s₁ [] looks ∧
      ((∃ e, loaded = .error e ∧ result = .error e ∧ r' = r₁ ∧ s' = s₁ ∧ calls = looks) ∨
        ∃ docs ended, loaded = .ok docs ∧
          generate host.recorded schedule ⟨line.importPaths, max line.jobs 1⟩ cancel entries docs
            r₁ (s₁, looks) = ((ended, r'), (s', calls)) ∧
          result = contained .internalFault (ended.map fun () => docs)) := by
  rw [run_of_configured configured] at h
  dsimp only at h
  let r₀ : Run := { r with logging := c.logging.getD line.verbose }
  let event : Event := .compiling line.files.length ((entries.filter (·.activated)).map (·.name))
    (max line.jobs 1)
  obtain ⟨s₀, logged, kept⟩ := Run.perform_log_recorded keep event r₀ s []
  have announced : Run.execute host.recorded (Program.perform (.log event)) r₀ (s, []) =
      (((), r₀), (s₀, [])) := Run.execute_ask _ logged
  have begun : OnlyLooked stored r r₀ s s₀ [] [] := ⟨rfl, kept, [], rfl, nofun⟩
  rw [announced] at h
  rcases ran : Run.execute host.recorded (load ⟨line.importPaths, max line.jobs 1⟩ line.files).run
    r₀ (s₀, []) with ⟨⟨loaded, r₁⟩, s₁, looks⟩
  have looked := begun.trans (Run.execute_recorded_looks keep (load_looks _ _) ran)
  refine ⟨r₀, s₀, loaded, r₁, s₁, looks, ran, rfl, looked, ?_⟩
  rw [run_of_load host.recorded schedule _ cancel entries line.files ran] at h
  cases loaded with
  | error e =>
    cases h
    exact .inl ⟨e, rfl, rfl, rfl, rfl, rfl⟩
  | ok docs =>
    rcases generated : generate host.recorded schedule ⟨line.importPaths, max line.jobs 1⟩ cancel
      entries docs r₁ (s₁, looks) with ⟨⟨ended, r₂⟩, s₂, calls₂⟩
    rw [finish_of_generate generated] at h
    cases h
    exact .inr ⟨docs, ended, rfl, generated, rfl⟩

/-- A run that ends with an early error has called no generator, has only looked at files and has
left all of them as they were, and it has not even done that where an input is of an unknown kind.
A generator is called only when every input was read and the documents passed the check. -/
theorem early_failure_without_effect (keep : host.LooksKeep stored) (c : Compiler)
    (schedule : List Nat) (args : List String) (cancel : CancelContext) {r r' : Run} {s s' : σ}
    {calls : List FileCall} {result : Except CompileError (List Document)}
    (h : c.run host.recorded schedule args cancel r (s, []) = ((result, r'), (s', calls))) :
    (∀ e, result = .error e → e.IsEarly →
      r'.calls = r.calls ∧ stored s' = stored s ∧ ∀ call ∈ calls, call.IsLook) ∧
    (calls ≠ [] → ∃ line entries, c.configure args = .ok (line, entries) ∧
      ∀ input ∈ line.files, hasSourceExtension input = true) ∧
    (r'.calls ≠ r.calls → ∃ line entries docs r₀ s₀ r₁ s₁ looks ended,
      c.configure args = .ok (line, entries) ∧
      InputsRead host.recorded line.importPaths .empty line.files docs r₀ (s₀, []) r₁ (s₁, looks) ∧
      checkDocuments docs = [] ∧ r₀.calls = r.calls ∧ r₁.calls = r.calls ∧
      generate host.recorded schedule ⟨line.importPaths, max line.jobs 1⟩ cancel entries docs
        r₁ (s₁, looks) = ((ended, r'), (s', calls))) := by
  cases configured : c.configure args with
  | error refusal =>
    rw [run_of_refused configured] at h
    cases h
    exact ⟨fun _ _ _ => ⟨rfl, rfl, nofun⟩, fun some => (some rfl).elim, fun some => (some rfl).elim⟩
  | ok understood =>
    obtain ⟨line, entries⟩ := understood
    obtain ⟨r₀, s₀, loaded, r₁, s₁, looks, ran, before, looked, ended⟩ :=
      run_after_loading keep configured h
    obtain ⟨more, rfl, look⟩ := looked.looks
    refine ⟨fun e failed early => ?_, fun some => ⟨line, entries, rfl, fun input member => ?_⟩,
      fun some => ?_⟩
    · rcases ended with ⟨_, -, -, rfl, rfl, rfl⟩ | ⟨docs, ended, -, generated, same⟩
      · exact ⟨looked.uncalled, looked.kept, look⟩
      · refine absurd (contained_failsGenerating ?_ (same.symm.trans failed))
          early.not_isOfGenerating
        intro cause inside
        refine generate_failsGenerating generated cause ?_
        cases ended <;> cases inside
        rfl
    · by_contra unknown
      obtain ⟨e, fails⟩ := execute_load_of_unknown host.recorded
        ⟨line.importPaths, max line.jobs 1⟩ member (Bool.not_eq_true _ ▸ unknown) r₀ (s₀, [])
      cases ran.symm.trans fails
      rcases ended with ⟨_, -, -, -, -, rfl⟩ | ⟨_, _, impossible, -⟩
      · exact some rfl
      · cases impossible
    · rcases ended with ⟨_, -, -, rfl, -⟩ | ⟨docs, ended, rfl, generated, -⟩
      · exact absurd looked.uncalled some
      · obtain ⟨read, checked⟩ := inputsRead_of_load ran
        exact ⟨line, entries, docs, r₀, s₀, r₁, s₁, _, ended, rfl, read, checked, before,
          looked.uncalled, generated⟩

/-- One generator, which writes a file for each document. -/
def writing : Compiler :=
  { registry := ⟨[⟨Behaviour.write.generator "one", "one", "one_out", none, "", false⟩], none⟩
    plugin := fun _ name => Behaviour.write.generator name
    logging := none }

/-- One input. -/
def inputOf (source : String) : Sandbox :=
  { Sandbox.empty with memory := Memory.ofFiles [(⟨"a.gql"⟩, Text.encode source)] }

/-- The kind of the failure a run ended with, which can be computed. -/
def failureKind? (result : Except CompileError (List Document)) : Option ErrorKind :=
  match result with
  | .error e => some e.kind
  | .ok _ => none

theorem looksKeep_memory :
    (Sandbox.host Sandbox.memoryFiles).LooksKeep fun sandbox => sandbox.memory.files :=
  ⟨fun _ _ => rfl, fun _ _ => rfl, fun _ _ => rfl⟩

/-- The input of an undefined type is refused, and nothing is written or called; the other one is
generated from, behind the check. -/
theorem early_failure_of_missing_type :
    let ended (source : String) := writing.run (Sandbox.host Sandbox.memoryFiles).recorded []
      ["compiler", "--one_out", "out", "a.gql"] ⟨0, none⟩ (.start .empty) (inputOf source, [])
    let refused := ended "type A { x: Missing }"
    let generated := ended "type A { x: Int }"
    (∃ e, refused.1.1 = .error e ∧ e.kind = .typeCheckError) ∧ refused.1.2.calls = [] ∧
      refused.2.1.memory.files = [(⟨"a.gql"⟩, Text.encode "type A { x: Missing }")] ∧
      generated.1.2.calls = [⟨0, "a"⟩] ∧
      ∃ docs r₀ s₀ r₁ s₁, InputsRead (Sandbox.host Sandbox.memoryFiles).recorded [⟨"."⟩] .empty
        ["a.gql"] docs r₀ (s₀, []) r₁ s₁ ∧ checkDocuments docs = [] := by
  intro ended refused generated
  let line : CommandLine := ⟨[⟨"."⟩], false, 1, ["a.gql"], [("one_out", "out")]⟩
  have configured : ∃ entries, writing.configure ["compiler", "--one_out", "out", "a.gql"] =
      .ok (line, entries) := ⟨_, rfl⟩
  have parts (x : (Except CompileError (List Document) × Run) × Sandbox × List FileCall) :
      x = ((x.1.1, x.1.2), (x.2.1, x.2.2)) := rfl
  have kind : failureKind? refused.1.1 = some .typeCheckError := by decide +kernel
  obtain ⟨e, failed, kind⟩ : ∃ e, refused.1.1 = .error e ∧ e.kind = .typeCheckError := by
    rcases result : refused.1.1 with e | docs
    · rw [result] at kind
      exact ⟨e, rfl, Option.some.inj kind⟩
    · rw [result] at kind
      cases kind
  have called : generated.1.2.calls = [⟨0, "a"⟩] := by decide +kernel
  obtain ⟨uneventful, -, -⟩ := early_failure_without_effect looksKeep_memory writing [] _ ⟨0, none⟩
    (parts refused)
  obtain ⟨-, -, behind⟩ := early_failure_without_effect looksKeep_memory writing [] _ ⟨0, none⟩
    (parts generated)
  obtain ⟨uncalled, kept, -⟩ := uneventful e failed (.inl (by rw [kind]; decide))
  refine ⟨⟨e, failed, kind⟩, uncalled, kept, called, ?_⟩
  obtain ⟨_, _, docs, r₀, s₀, r₁, s₁, looks, -, same, read, checked, -⟩ :=
    behind (by rw [called]; exact List.cons_ne_nil _ _)
  obtain ⟨entries, configured⟩ := configured
  cases configured.symm.trans same
  exact ⟨docs, r₀, s₀, r₁, _, read, checked⟩

end Compiler

end SchemaCompiler
