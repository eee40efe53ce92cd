import Mathlib.Data.List.Forall2
import SchemaCompiler.Proofs.Fault.Containment
import SchemaCompiler.Proofs.FileSystem.MemoryView
import SchemaCompiler.Proofs.Output.Settling
import SchemaCompiler.Proofs.Pipeline.Calls
import SchemaCompiler.Proofs.Pipeline.Loading

/-!
One job or several.

Where generators come by themselves to fixed outcomes, and no two of them write to one place, a run
with several jobs ends as a run with one job does, whatever the schedule: with the same result, and
with the same files as far as the run with one job came.
-/

namespace SchemaCompiler

variable {σ : Type} {host : Host (StateM σ)}

namespace Pipeline

open Program (Settles)

/-! ## Calls -/

/-- What a generator does with a document by itself: how it ends, what it leaves in files, and where
these may lie. -/
structure Conduct where
  outcome : Except (Abort GeneratorError) Unit
  final : Path → Option Bytes
  places : Path → Prop

instance : Inhabited Conduct := ⟨⟨.ok (), fun _ => none, fun _ => False⟩⟩

/-- The generator of an entry, called for a document, behaves so by itself: its outcome and what it
writes depend on the document, on the options and on the answers to its own file operations. -/
def Steady (view : Host.View host) (cancellations : Cancellations) (cancel : CancelContext)
    (active : ActiveEntry) (doc : Document) (conduct : Conduct) : Prop :=
  (active.entry.generator ⟨active.output, cancel, doc, active.entry.options⟩).run.ComesTo view
    cancellations active.output conduct.places conduct.outcome conduct.final

/-- Every entry is steady on every document, and no two of these pairs have a place in common. -/
structure Separate (view : Host.View host) (cancellations : Cancellations) (cancel : CancelContext)
    (active : List ActiveEntry) (docs : List Document) (conducts : List Conduct) : Prop where
  steady : List.Forall₂ (fun pair => Steady view cancellations cancel pair.1 pair.2)
    (pairs active docs) conducts
  apart : conducts.Pairwise fun a b => ∀ p q, a.places p → b.places q → p.same q = false

/-- A generator that writes whole files comes to something. -/
theorem exists_steady {view : Host.View host} {cancellations : Cancellations}
    {cancel : CancelContext} {active : ActiveEntry} {doc : Document} {allowed : String → Prop}
    (h : (active.entry.generator ⟨active.output, cancel, doc, active.entry.options⟩).run.WritesWhole
      view cancellations active.output allowed) :
    ∃ outcome final, Steady view cancellations cancel active doc
      ⟨outcome, final, fun path => ∃ name, allowed name ∧ path = active.output.place name⟩ :=
  h.comesTo

/-- While nothing is cancelled, a call comes to what its generator comes to. -/
theorem call_comesTo {view : Host.View host} {cancellations : Cancellations}
    {cancel : CancelContext}
    (uncancelled : ∀ s, view.Valid s → cancel.isDone cancellations (host.now s).1 = false)
    {active : ActiveEntry} {doc : Document} {conduct : Conduct}
    (steady : Steady view cancellations cancel active doc conduct) :
    (call cancel active doc).run.ComesTo view cancellations active.output conduct.places
      (callOutcome conduct.outcome) conduct.final := by
  refine .aside rfl fun done possible => ?_
  obtain ⟨r, s, calm, valid, answered⟩ := possible
  have going : done = false := by
    rw [← answered, Run.perform_isDone, calm.cancellations]
    exact uncancelled s valid
  subst going
  refine .aside rfl fun _ _ => .aside rfl fun _ _ => ?_
  change (Work.mapError CompileError.generator _).run.ComesTo view cancellations active.output
    conduct.places (callOutcome conduct.outcome) conduct.final
  rw [run_mapError_generator]
  exact steady.map

/-- What is reported of a call whose generator ends so: a panic is an internal fault, met by the one
guard around it. -/
def report (conduct : Conduct) : Except CompileError Unit :=
  match conduct.outcome with
  | .ok () => .ok ()
  | .error (.failed e) => .error (.generator e)
  | .error (.panicked p) => .error (.internalFault ⟨p.words, (⟨1, none⟩ : Thread).stack⟩)

theorem contained_callOutcome (conduct : Conduct) :
    contained .internalFault (callOutcome conduct.outcome) = report conduct := by
  rw [report]
  rcases conduct.outcome with (e | ⟨payload, _ | location⟩) | ⟨⟩ <;> rfl

/-! ## Several jobs and one -/

theorem poised_opened {view : Host.View host} {cancellations : Cancellations} {r : Run} {s : σ}
    {calls : List FileCall} (entries : List (Entry Generator)) (docs : List Document)
    (unbegun : Unbegun view cancellations r s calls) :
    Poised view cancellations (outputAt r.outputs.length entries docs)
      (pairs (actives 0 r.outputs.length entries) docs).length
      (opened r (actives 0 r.outputs.length entries)) s calls where
  calm := ⟨unbegun.calm.cancellations, unbegun.calm.located⟩
  valid := unbegun.valid
  nothing := unbegun.nothing
  fresh := by
    intro i inside
    obtain ⟨k, a, here, -, output⟩ := outputAt_eq inside
    rw [output, opened_outputs, here, directoryAt_of_actives here, Option.map_some, newRecord,
      output_of_actives here]

/-- Where each call settles by itself, so does generating. If it ends well, all calls have, and the
files are those that they have left; else it ends as one of the calls. -/
theorem generate_settles {view : Host.View host} {cancellations : Cancellations}
    {cancel : CancelContext} {entries : List (Entry Generator)} {docs : List Document} {r r' : Run}
    {s s' : σ} {calls calls' : List FileCall} {places : Nat → Path → Prop}
    {Q : Nat → Except (Abort CompileError) Unit → FileState → Prop}
    (apart : PlacesApart (pairs (actives 0 r.outputs.length entries) docs).length places)
    (settles : ∀ {i work},
      (Pipeline.calls cancel (actives 0 r.outputs.length entries) docs)[i]? = some work →
      Settles view cancellations (outputAt r.outputs.length entries docs i) (places i)
        (fun result f _ => Q i result f) work.run .empty [])
    (unbegun : Unbegun view cancellations r s calls)
    {schedule : List Nat} {settings : PipelineSettings} {result : Except (Abort CompileError) Unit}
    (h : generate host.recorded schedule settings cancel entries docs r (s, calls) =
      ((result, r'), (s', calls'))) :
    (result = .ok () → ∃ own : Nat → FileState,
      (∀ i < (pairs (actives 0 r.outputs.length entries) docs).length, Q i (.ok ()) (own i)) ∧
      Overlaid (pairs (actives 0 r.outputs.length entries) docs).length (view.files s).contents
        (fun i => (own i).contents) (view.files s').contents) ∧
    ∀ e, contained .internalFault result = .error e →
      ∃ i < (pairs (actives 0 r.outputs.length entries) docs).length, ∃ ended f,
        Q i ended f ∧ contained .internalFault ended = .error e := by
  obtain ⟨order, made, ended, begun, ran, reported, all⟩ := generate_eq_executeAll h
  have count : (Pipeline.calls cancel (actives 0 r.outputs.length entries) docs).length =
      (pairs (actives 0 r.outputs.length entries) docs).length := by
    rw [calls_eq, List.length_map]
  have fewer := count ▸ begun.length_le
  have each {i : Nat} {p : Program (Except (Abort CompileError) Unit)}
      (here : (made.map (·.run))[i]? = some p) :
      Settles view cancellations (outputAt r.outputs.length entries docs i) (places i)
        (fun result f _ => Q i result f) p .empty [] := by
    rw [List.getElem?_map, Option.map_eq_some_iff] at here
    obtain ⟨work, found, rfl⟩ := here
    obtain ⟨rest, same⟩ := begun
    have inside := (List.getElem?_eq_some_iff.mp found).1
    exact settles (by rw [← same, List.getElem?_append_left inside, found])
  obtain ⟨length, own, taken, reached, files, -⟩ := Run.executeAll_settles
    (by rw [List.length_map]; exact apart.mono fewer) each
    (by rw [List.length_map]; exact (poised_opened entries docs unbegun).mono fewer) ran
  rw [List.length_map] at length files
  refine ⟨?_, fun e failed => ?_⟩
  · rintro rfl
    rw [all rfl, count] at length files
    refine ⟨own, fun i inside => ?_, files⟩
    have here : ended[i]? = some ended[i] := List.getElem?_eq_getElem (length.symm ▸ inside)
    have well := firstError_eq_ok reported.symm _
      (List.mem_map_of_mem (List.mem_of_getElem? here))
    rw [contained_eq_ok well] at here
    exact reached here
  · rw [reported] at failed
    obtain ⟨last, member, same⟩ := List.mem_map.mp (firstError_mem failed)
    obtain ⟨i, here⟩ := List.mem_iff_getElem?.mp member
    have inside := (List.getElem?_eq_some_iff.mp here).1
    exact ⟨i, Nat.lt_of_lt_of_le (length ▸ inside) fewer, last, own i, reached here, same⟩

section

variable {view : Host.View host} {cancellations : Cancellations} {cancel : CancelContext}
  {entries : List (Entry Generator)} {active : List ActiveEntry} {docs : List Document}
  {conducts : List Conduct}

theorem Separate.placesApart (separate : Separate view cancellations cancel active docs conducts) :
    PlacesApart conducts.length fun i => (conducts[i]?.getD default).places := by
  have apart := List.pairwise_iff_getElem.mp separate.apart
  intro i j hi hj different p q hp hq
  simp only [List.getElem?_eq_getElem hi, List.getElem?_eq_getElem hj, Option.getD_some] at hp hq
  rcases Nat.lt_or_gt_of_ne different with before | behind
  · exact apart i j hi hj before p q hp hq
  · rw [Path.same_comm]
    exact apart j i hj hi behind q p hq hp

/-- Every call comes to what its generator comes to. -/
theorem Separate.comesTo {id : Nat}
    (separate : Separate view cancellations cancel (actives 0 id entries) docs conducts)
    (uncancelled : ∀ s, view.Valid s → cancel.isDone cancellations (host.now s).1 = false)
    {i : Nat} {work : Work CompileError Unit}
    (here : (calls cancel (actives 0 id entries) docs)[i]? = some work) :
    work.run.ComesTo view cancellations (outputAt id entries docs i)
      (conducts[i]?.getD default).places (callOutcome (conducts[i]?.getD default).outcome)
      (conducts[i]?.getD default).final := by
  rw [calls_eq, List.getElem?_map, Option.map_eq_some_iff] at here
  obtain ⟨pair, hpair, rfl⟩ := here
  obtain ⟨inside, hentry⟩ := List.getElem?_eq_some_iff.mp hpair
  have inside' : i < conducts.length := separate.steady.length_eq ▸ inside
  have steady := (List.forall₂_iff_get.mp separate.steady).2 i inside inside'
  rw [List.get_eq_getElem, hentry] at steady
  rw [outputAt, hpair, List.getElem?_eq_getElem inside', Option.getD_some]
  exact call_comesTo uncancelled steady

/-- Generating from the documents, with several jobs and with one. -/
theorem generate_agrees {r₁ r₁' r₂ r₂' : Run}
    (separate : Separate view cancellations cancel (actives 0 r₁.outputs.length entries) docs
      conducts)
    (uncancelled : ∀ s, view.Valid s → cancel.isDone cancellations (host.now s).1 = false)
    {schedule₁ schedule₂ : List Nat} {settings₁ settings₂ : PipelineSettings}
    (several : settings₁.jobs > 1) (single : ¬ settings₂.jobs > 1)
    {s₁ s₁' s₂ s₂' : σ} {calls₁ calls₁' calls₂ calls₂' : List FileCall}
    {result₁ result₂ : Except (Abort CompileError) Unit}
    (outputs : r₁.outputs.length = r₂.outputs.length)
    (unbegun₁ : Unbegun view cancellations r₁ s₁ calls₁)
    (unbegun₂ : Unbegun view cancellations r₂ s₂ calls₂)
    (same : (view.files s₁).contents = (view.files s₂).contents)
    (h₁ : generate host.recorded schedule₁ settings₁ cancel entries docs r₁ (s₁, calls₁) =
      ((result₁, r₁'), (s₁', calls₁')))
    (h₂ : generate host.recorded schedule₂ settings₂ cancel entries docs r₂ (s₂, calls₂) =
      ((result₂, r₂'), (s₂', calls₂'))) :
    contained .internalFault result₁ = firstError (conducts.map report) ∧
      contained .internalFault result₂ = firstError (conducts.map report) ∧
      (result₂ = .ok () → (view.files s₁').contents = (view.files s₂').contents) ∧
      ∀ {path handle}, FileCall.create path (.ok handle) ∈ calls₂' →
        (view.files s₁').contents path = (view.files s₂').contents path := by
  rw [generate_eq, if_pos several] at h₁
  rw [generate_eq, if_neg single, ← outputs] at h₂
  have count : (calls cancel (actives 0 r₁.outputs.length entries) docs).length =
      conducts.length := by
    rw [calls_eq, List.length_map, separate.steady.length_eq]
  rcases hall : Run.executeAll host.recorded schedule₁
    ((calls cancel (actives 0 r₁.outputs.length entries) docs).map (·.run))
    (opened r₁ (actives 0 r₁.outputs.length entries)) (s₁, calls₁) with
    ⟨⟨ended, r₃⟩, s₃, calls₃⟩
  rw [hall] at h₁
  cases h₁
  have poised₁ := poised_opened entries docs unbegun₁
  have poised₂ := poised_opened entries docs unbegun₂
  rw [← outputs, separate.steady.length_eq, ← count] at poised₂
  rw [separate.steady.length_eq, ← count] at poised₁
  obtain ⟨results, first, files, created⟩ := Run.executeAll_eq_forM
    (count ▸ separate.placesApart) (separate.comesTo uncancelled) poised₁ poised₂ same hall h₂
  have reports : ended.map (contained .internalFault) = conducts.map report := by
    rw [results, count, List.map_map]
    refine List.ext_getElem (by simp) fun i hi hi' => ?_
    have inside : i < conducts.length := by simpa using hi'
    simp [contained_callOutcome, List.getElem?_eq_getElem inside]
  refine ⟨?_, ?_, files, created⟩
  · rw [contained_mapError_failed, reports]
  · rw [first, ← firstError_map_contained, reports]

end

end Pipeline

namespace Compiler

open Pipeline

/-- With several jobs the compiler ends as with one, under every schedule: with the first failure in
the order of entries and documents, if there is one. What one job created holds the same afterwards
with several jobs, and if it ended well, so does every other place. -/
theorem jobs_agree (view : Host.View host) (c : Compiler) {args argsOfOne : List String}
    {line : CommandLine} {entries : List (Entry Generator)} (several : 1 < line.jobs)
    (configured : c.configure args = .ok (line, entries))
    (configuredOne : c.configure argsOfOne = .ok ({ line with jobs := 1 }, entries))
    (cancel : CancelContext) {r : Run} {s : σ} (calm : view.Calm r.cancellations r)
    (valid : view.Valid s)
    (uncancelled : ∀ s, view.Valid s → cancel.isDone r.cancellations (host.now s).1 = false)
    {loaded : Except CompileError (List Document)}
    (loads : (Run.execute host (load ⟨line.importPaths, 1⟩ line.files).run r s).1.1 = loaded)
    {conducts : List Conduct}
    (separate : ∀ docs, loaded = .ok docs →
      Separate view r.cancellations cancel (actives 0 r.outputs.length entries) docs conducts)
    (schedule scheduleOfOne : List Nat) {result resultOfOne : Except CompileError (List Document)}
    {r₁ r₂ : Run} {s₁ s₂ : σ} {calls callsOfOne : List FileCall}
    (h : c.run host.recorded schedule args cancel r (s, []) = ((result, r₁), (s₁, calls)))
    (hOne : c.run host.recorded scheduleOfOne argsOfOne cancel r (s, []) =
      ((resultOfOne, r₂), (s₂, callsOfOne))) :
    result = resultOfOne ∧
      resultOfOne =
        (loaded.bind fun docs => (firstError (conducts.map report)).map fun () => docs) ∧
      ((∃ docs, resultOfOne = .ok docs) →
        (view.files s₁).contents = (view.files s₂).contents) ∧
      ∀ {path handle}, FileCall.create path (.ok handle) ∈ callsOfOne →
        (view.files s₁).contents path = (view.files s₂).contents path := by
  obtain ⟨r₃, s₃, calls₃, ran, outputs₃, files₃, begun₃⟩ :=
    run_eq configured schedule cancel calm valid loads
  obtain ⟨r₄, s₄, calls₄, ranOne, outputs₄, files₄, begun₄⟩ :=
    run_eq configuredOne scheduleOfOne cancel calm valid loads
  rw [h] at ran
  rw [hOne] at ranOne
  cases loaded with
  | error e =>
    cases ran
    cases ranOne
    exact ⟨rfl, rfl, nofun, fun member => absurd member begun₄.nothing⟩
  | ok docs =>
    have jobs : (⟨line.importPaths, max line.jobs 1⟩ : PipelineSettings).jobs > 1 :=
      Nat.lt_of_lt_of_le several (Nat.le_max_left _ _)
    rcases generated : generate host.recorded schedule ⟨line.importPaths, max line.jobs 1⟩ cancel
      entries docs r₃ (s₃, calls₃) with ⟨⟨outcome, r₅⟩, s₅, calls₅⟩
    rcases generatedOne : generate host.recorded scheduleOfOne ⟨line.importPaths, max 1 1⟩ cancel
      entries docs r₄ (s₄, calls₄) with ⟨⟨outcomeOfOne, r₆⟩, s₆, calls₆⟩
    obtain ⟨reported, reportedOne, files, created⟩ :=
      generate_agrees (outputs₃ ▸ separate docs rfl) uncancelled jobs (Nat.lt_irrefl 1)
        (by rw [outputs₃, outputs₄]) begun₃ begun₄ (by rw [files₃, files₄]) generated generatedOne
    rw [finish_of_generate generated] at ran
    rw [finish_of_generate generatedOne] at ranOne
    simp only [contained_map, reported] at ran
    simp only [contained_map, reportedOne] at ranOne
    cases ran
    cases ranOne
    refine ⟨rfl, rfl, ?_, created⟩
    rintro ⟨docs', ended⟩
    refine files (contained_eq_ok (reportedOne.trans ?_))
    cases first : firstError (conducts.map report) with
    | ok => rfl
    | error e =>
      rw [first] at ended
      cases ended

/-! ## A panic on the way -/

/-- A generator that panics on a document, and one with its output inside that of the first. -/
def panicking : Compiler :=
  { registry := ⟨[⟨(Behaviour.panicOn "b").generator "one", "one", "one_out", none, "", false⟩,
      ⟨Behaviour.write.generator "two", "two", "two_out", none, "", false⟩], none⟩
    plugin := fun _ name => Behaviour.write.generator name
    logging := none }

def argumentsFor (jobs : String) : List String :=
  ["compiler", "--jobs", jobs, "--one_out", "out", "--two_out", "out/two", "a.gql", "b.gql"]

/-- Two empty inputs, and one file that cannot be created. -/
def twoInputs : Sandbox :=
  { Sandbox.empty with
    memory := { Memory.ofFiles [(⟨"a.gql"⟩, []), (⟨"b.gql"⟩, [])] with
      failing := [(.create, ⟨"out/two/a.txt"⟩)] } }

def twoDocuments : List Document := [⟨"a", "a.gql", []⟩, ⟨"b", "b.gql", []⟩]

def one : ActiveEntry :=
  ⟨0, ⟨(Behaviour.panicOn "b").generator "one", "one", ⟨"out"⟩, [], true⟩, ⟨0, ⟨"out"⟩⟩⟩

def two : ActiveEntry :=
  ⟨1, ⟨Behaviour.write.generator "two", "two", ⟨"out/two"⟩, [], true⟩, ⟨1, ⟨"out/two"⟩⟩⟩

/-- The first generator writes a file and then panics; the second writes to other places. -/
theorem panicking_separate :
    ∃ conducts, Separate (Sandbox.memoryView twoInputs.memory.failing) .empty ⟨0, none⟩ [one, two]
        twoDocuments conducts ∧
      firstError (conducts.map report) =
        .error (.internalFault ⟨"generator bug on b", "guarded work\nthread\n"⟩) := by
  let view := Sandbox.memoryView twoInputs.memory.failing
  have written : (Work.writeFile one.output "a.txt" (Text.encode "one")).run.ComesTo view .empty
      one.output (· = ⟨"out/a.txt"⟩) (.ok ())
      (FileState.empty.put ⟨"out/a.txt"⟩ (Text.encode "one")).contents :=
    writeFile_comesTo (Text.encode "one") (by decide)
  have writes : Steady view .empty ⟨0, none⟩ one ⟨"a", "a.gql", []⟩
      ⟨.ok (), (FileState.empty.put ⟨"out/a.txt"⟩ (Text.encode "one")).contents,
        (· = ⟨"out/a.txt"⟩)⟩ := written.map
  have panics : Steady view .empty ⟨0, none⟩ one ⟨"b", "b.gql", []⟩
      ⟨.error (.panicked ⟨.text "generator bug on b", none⟩), fun _ => none, fun _ => False⟩ :=
    ⟨rfl, rfl⟩
  have second (doc : Document) : ∃ outcome final, Steady view .empty ⟨0, none⟩ two doc
      ⟨outcome, final, fun path => ∃ name, name = Behaviour.file doc .write ∧
        path = two.output.place name⟩ :=
    exists_steady (Behaviour.generator_writesWhole (by decide) "two"
      ⟨two.output, ⟨0, none⟩, doc, two.entry.options⟩)
  obtain ⟨outcomeA, finalA, secondA⟩ := second ⟨"a", "a.gql", []⟩
  obtain ⟨outcomeB, finalB, secondB⟩ := second ⟨"b", "b.gql", []⟩
  refine ⟨_, ⟨.cons writes (.cons panics (.cons secondA (.cons secondB .nil))), ?_⟩, rfl⟩
  simp only [List.pairwise_cons, List.mem_cons, List.not_mem_nil, or_false, forall_eq_or_imp,
    forall_eq, false_implies, implies_true, forall_exists_index, and_imp, List.Pairwise.nil,
    and_true]
  refine ⟨⟨trivial, ?_, ?_⟩, trivial, ?_⟩ <;> (rintro p q rfl rfl; decide)

theorem panicking_loads :
    (Run.execute (Sandbox.host Sandbox.memoryFiles) (load ⟨[⟨"."⟩], 1⟩ ["a.gql", "b.gql"]).run
      (.start .empty) twoInputs).1.1 = .ok twoDocuments := by
  with_unfolding_all rfl

/-- Whatever the schedule, several jobs report the panic that one job stops at. -/
theorem jobs_agree_panicking :
    let host := (Sandbox.host Sandbox.memoryFiles).recorded
    let ended := panicking.run host [3, 0, 2, 2, 1, 3, 0] (argumentsFor "3") ⟨0, none⟩
      (.start .empty) (twoInputs, [])
    let endedOne := panicking.run host [] (argumentsFor "1") ⟨0, none⟩ (.start .empty)
      (twoInputs, [])
    endedOne.1.1 = .error (.internalFault ⟨"generator bug on b", "guarded work\nthread\n"⟩) ∧
      ended.1.1 = endedOne.1.1 ∧
      ∀ path handle, FileCall.create path (.ok handle) ∈ endedOne.2.2 →
        ended.2.1.memory.get? path = endedOne.2.1.memory.get? path := by
  intro host ended endedOne
  let view := Sandbox.memoryView twoInputs.memory.failing
  let line : CommandLine :=
    ⟨[⟨"."⟩], false, 3, ["a.gql", "b.gql"], [("two_out", "out/two"), ("one_out", "out")]⟩
  have configured : panicking.configure (argumentsFor "3") = .ok (line, [one.entry, two.entry]) :=
    rfl
  have configuredOne : panicking.configure (argumentsFor "1") =
      .ok ({ line with jobs := 1 }, [one.entry, two.entry]) := rfl
  have calm : view.Calm Cancellations.empty (.start .empty) := ⟨rfl, nofun⟩
  have valid : view.Valid twoInputs := ⟨rfl, nofun⟩
  have uncancelled : ∀ s, view.Valid s →
      CancelContext.isDone ⟨0, none⟩ .empty ((Sandbox.host Sandbox.memoryFiles).now s).1 = false :=
    fun _ _ => rfl
  obtain ⟨conducts, separate, first⟩ := panicking_separate
  -- the runs are taken apart without carrying them out
  have parts (x : (Except CompileError (List Document) × Run) × Sandbox × List FileCall) :
      x = ((x.1.1, x.1.2), (x.2.1, x.2.2)) := rfl
  obtain ⟨agree, result, -, files⟩ := jobs_agree view panicking (by decide) configured configuredOne
    ⟨0, none⟩ calm valid uncancelled panicking_loads (fun docs same => by cases same; exact separate)
    _ _ (parts ended) (parts endedOne)
  clear_value ended endedOne
  refine ⟨result.trans ?_, agree, fun path handle member => files member⟩
  rw [Except.bind, first]
  rfl

end Compiler

end SchemaCompiler
