import SchemaCompiler.Generator
import SchemaCompiler.Run

/-!
Invariants of interleaved programs.

A property of several programs and of their surroundings that the next action of any one program
keeps holds when all of them have ended, whatever the schedule. It also holds when one program
alone was carried out, and when works were done one after another up to the first that failed. A
kind of result that a program ends with whatever it is answered is such a property.
-/

namespace SchemaCompiler

variable {σ α : Type}

namespace Run

/-- Whichever of the programs goes on, its next action keeps `Holds`. -/
def Keeps (host : Host (StateM σ)) (Holds : List (Program α) → Run → σ → Prop) : Prop :=
  ∀ {programs : List (Program α)} {i : Nat} {action : Action}
    {next : action.Answer → Program α} {r r' : Run} {s s' : σ} {answer : action.Answer},
    Holds programs r s → programs[i]? = some (.ask action next) →
      perform host action r s = ((answer, r'), s') →
        Holds (programs.set i (next answer)) r' s'

variable {host : Host (StateM σ)} {Holds : List (Program α) → Run → σ → Prop}

/-! ## One program -/

/-- A program goes on, after an action, from where the action led. -/
theorem execute_ask {action : Action} (next : action.Answer → Program α) {r r' : Run} {s s' : σ}
    {answer : action.Answer} (h : perform host action r s = ((answer, r'), s')) :
    execute host (.ask action next) r s = execute host (next answer) r' s' := by
  change (let x := perform host action r s; execute host (next x.1.1) x.1.2 x.2) = _
  rw [h]

theorem execute_bind {β : Type} (p : Program β) (k : β → Program α) {r r' : Run} {s s' : σ} {b : β}
    (h : execute host p r s = ((b, r'), s')) :
    execute host (p.bind k) r s = execute host (k b) r' s' := by
  induction p generalizing r s with
  | done b' =>
    cases h
    rfl
  | ask action next ih =>
    rcases hperform : perform host action r s with ⟨⟨answer, r₁⟩, s₁⟩
    rw [execute_ask next hperform] at h
    rw [Program.bind, execute_ask _ hperform]
    exact ih answer h

/-- Work goes on with the value of its first part. -/
theorem execute_bind_ok {ε β : Type} {work : ExceptT ε Program β} (next : β → ExceptT ε Program α)
    {r r' : Run} {s s' : σ} {b : β} (h : execute host work.run r s = ((.ok b, r'), s')) :
    execute host (work >>= next).run r s = execute host (next b).run r' s' :=
  execute_bind work.run _ h

/-- Work stops with the error of its first part. -/
theorem execute_bind_error {ε β : Type} {work : ExceptT ε Program β}
    (next : β → ExceptT ε Program α) {r r' : Run} {s s' : σ} {e : ε}
    (h : execute host work.run r s = ((.error e, r'), s')) :
    execute host (work >>= next).run r s = ((.error e, r'), s') :=
  execute_bind work.run _ h

theorem execute_adapt {ε δ : Type} (f : ε → δ) {work : ExceptT ε Program α} {r r' : Run} {s s' : σ}
    {result : Except ε α} (h : execute host work.run r s = ((result, r'), s')) :
    execute host (ExceptT.adapt f work).run r s = ((result.mapError f, r'), s') :=
  execute_bind work.run (fun result => .done (result.mapError f)) h

/-- Carrying one of several programs out to its end keeps what its actions keep. -/
theorem Keeps.execute (keeps : Keeps host Holds) {programs : List (Program α)} {i : Nat}
    {p : Program α} {r r' : Run} {s s' : σ} {a : α} (holds : Holds programs r s)
    (here : programs[i]? = some p) (h : execute host p r s = ((a, r'), s')) :
    Holds (programs.set i (.done a)) r' s' := by
  induction p generalizing programs r s with
  | done b =>
    cases h
    obtain ⟨inside, hprogram⟩ := List.getElem?_eq_some_iff.mp here
    rwa [← hprogram, List.set_getElem_self]
  | ask action next ih =>
    rcases hperform : perform host action r s with ⟨⟨answer, r₁⟩, s₁⟩
    rw [execute_ask next hperform] at h
    have later := keeps holds here hperform
    have inside : i < programs.length := (List.getElem?_eq_some_iff.mp here).1
    have result := ih answer later (by simp [inside]) h
    rwa [List.set_set] at result

/-! ## Several programs at once -/

theorem mapM_execute_cons {p : Program α} {programs : List (Program α)} {r r₁ r₂ : Run}
    {s s₁ s₂ : σ} {a : α} {others : List α} (first : Run.execute host p r s = ((a, r₁), s₁))
    (rest : programs.mapM (Run.execute host ·) r₁ s₁ = ((others, r₂), s₂)) :
    (p :: programs).mapM (Run.execute host ·) r s = ((a :: others, r₂), s₂) := by
  rw [List.mapM_cons]
  change (let x := Run.execute host p r s
    let y := programs.mapM (Run.execute host ·) x.1.2 x.2
    ((x.1.1 :: y.1.1, y.1.2), y.2)) = _
  rw [first]
  simp only [rest]

theorem Keeps.mapM_execute (keeps : Keeps host Holds) (ended : List α) {results : List α}
    {programs : List (Program α)} {r r' : Run} {s s' : σ}
    (holds : Holds (ended.map .done ++ programs) r s)
    (h : programs.mapM (Run.execute host ·) r s = ((results, r'), s')) :
    Holds ((ended ++ results).map .done) r' s' := by
  induction programs generalizing ended results r s with
  | nil =>
    cases h
    simpa using holds
  | cons p programs ih =>
    rcases hfirst : Run.execute host p r s with ⟨⟨a, r₁⟩, s₁⟩
    rcases hrest : programs.mapM (Run.execute host ·) r₁ s₁ with ⟨⟨others, r₂⟩, s₂⟩
    cases (mapM_execute_cons hfirst hrest).symm.trans h
    have first := keeps.execute (i := ended.length) holds (by simp) hfirst
    have later : Holds ((ended ++ [a]).map .done ++ programs) r₁ s₁ := by
      simpa [List.set_append_right] using first
    simpa using ih (ended ++ [a]) later hrest

/-- A turn of a program that has ended, or that there is not, is passed over. -/
theorem executeAll_skip {schedule : List Nat} {programs : List (Program α)} {i : Nat}
    (ended : ¬ ∃ action next, programs[i]? = some (.ask action next)) (r : Run) (s : σ) :
    Run.executeAll host (i :: schedule) programs r s =
      Run.executeAll host schedule programs r s := by
  rw [Run.executeAll, Run.executeAll, Program.runAll, Program.stepAt]
  split
  · exact absurd ⟨_, _, ‹_›⟩ ended
  · rfl

theorem executeAll_next {schedule : List Nat} {programs : List (Program α)} {i : Nat}
    {action : Action} {next : action.Answer → Program α} {answer : action.Answer} {r r' : Run}
    {s s' : σ} (here : programs[i]? = some (.ask action next))
    (performed : perform host action r s = ((answer, r'), s')) :
    Run.executeAll host (i :: schedule) programs r s =
      Run.executeAll host schedule (programs.set i (next answer)) r' s' := by
  rw [Run.executeAll, Run.executeAll, Program.runAll, Program.stepAt, here]
  change (let x := perform host action r s
    Program.runAll (perform host) schedule (programs.set i (next x.1.1)) x.1.2 x.2) = _
  rw [performed]

/-- What every action keeps holds of the results, under every schedule. -/
theorem Keeps.executeAll (keeps : Keeps host Holds) {schedule : List Nat}
    {programs : List (Program α)} {results : List α} {r r' : Run} {s s' : σ}
    (holds : Holds programs r s)
    (h : Run.executeAll host schedule programs r s = ((results, r'), s')) :
    Holds (results.map .done) r' s' := by
  induction schedule generalizing programs r s with
  | nil => exact keeps.mapM_execute [] holds h
  | cons i schedule ih =>
    by_cases asks : ∃ action next, programs[i]? = some (.ask action next)
    · obtain ⟨action, next, here⟩ := asks
      rcases performed : perform host action r s with ⟨⟨answer, r₁⟩, s₁⟩
      rw [executeAll_next here performed] at h
      exact ih (keeps holds here performed) h
    · rw [executeAll_skip asks] at h
      exact ih holds h

theorem mapM_execute_map {β : Type} (f : α → β) {programs : List (Program α)} {results : List α}
    {r r' : Run} {s s' : σ} (h : programs.mapM (Run.execute host ·) r s = ((results, r'), s')) :
    (programs.map fun p => p.bind fun a => .done (f a)).mapM (Run.execute host ·) r s =
      ((results.map f, r'), s') := by
  induction programs generalizing results r s with
  | nil =>
    cases h
    rfl
  | cons p programs ih =>
    rcases hfirst : Run.execute host p r s with ⟨⟨a, r₁⟩, s₁⟩
    rcases hrest : programs.mapM (Run.execute host ·) r₁ s₁ with ⟨⟨others, r₂⟩, s₂⟩
    cases (mapM_execute_cons hfirst hrest).symm.trans h
    exact mapM_execute_cons (execute_bind p _ hfirst) (ih hrest)

/-- Programs that go on to something made of their results do the same until then. -/
theorem executeAll_map {β : Type} (f : α → β) {schedule : List Nat} {programs : List (Program α)}
    {results : List α} {r r' : Run} {s s' : σ}
    (h : Run.executeAll host schedule programs r s = ((results, r'), s')) :
    Run.executeAll host schedule (programs.map fun p => p.bind fun a => .done (f a)) r s =
      ((results.map f, r'), s') := by
  induction schedule generalizing programs r s with
  | nil => exact mapM_execute_map f h
  | cons i schedule ih =>
    by_cases asks : ∃ action next, programs[i]? = some (.ask action next)
    · obtain ⟨action, next, here⟩ := asks
      rcases performed : perform host action r s with ⟨⟨answer, r₁⟩, s₁⟩
      have there : (programs.map fun p => p.bind fun a => .done (f a))[i]? =
          some (.ask action fun answer => (next answer).bind fun a => .done (f a)) := by
        rw [List.getElem?_map, here]
        rfl
      rw [executeAll_next here performed] at h
      rw [executeAll_next there performed, ← ih h, List.map_set]
    · have never : ¬ ∃ action next,
          (programs.map fun p => p.bind fun a => .done (f a))[i]? = some (.ask action next) := by
        rintro ⟨action, next, there⟩
        rw [List.getElem?_map] at there
        obtain ⟨p, here, same⟩ := Option.map_eq_some_iff.mp there
        cases p with
        | done a => cases same
        | ask action next => exact asks ⟨action, next, here⟩
      rw [executeAll_skip asks] at h
      rw [executeAll_skip never]
      exact ih h

/-! ## Works one after another -/

variable {ε : Type}

/-- The first of several works decides whether there is a second. -/
theorem execute_forM_cons {β : Type} (f : β → Work ε Unit) (b : β) (bs : List β)
    {r r' : Run} {s s' : σ} {result : Except (Abort ε) Unit}
    (h : execute host (f b).run r s = ((result, r'), s')) :
    execute host ((b :: bs).forM f).run r s =
      match result with
      | .ok () => execute host (bs.forM f).run r' s'
      | .error e => ((.error e, r'), s') := by
  cases result with
  | ok => exact execute_bind_ok (fun _ => bs.forM f) h
  | error e => exact execute_bind_error (fun _ => bs.forM f) h

/-- Works that are done one after another up to the first failure. -/
inductive Sequence (works : List (Work ε Unit)) :
    Except (Abort ε) Unit → List (Program (Except (Abort ε) Unit)) → Prop where
  | all : Sequence works (.ok ()) (works.map fun _ => .done (.ok ()))
  | failed (made rest : List (Work ε Unit)) (work : Work ε Unit) {e : Abort ε}
      (split : works = made ++ work :: rest) :
      Sequence works (.error e)
        (made.map (fun _ => .done (.ok ())) ++ .done (.error e) :: rest.map (·.run))

theorem Sequence.cons {works : List (Work ε Unit)} {result : Except (Abort ε) Unit}
    {programs : List (Program (Except (Abort ε) Unit))} (work : Work ε Unit)
    (h : Sequence works result programs) :
    Sequence (work :: works) result (.done (.ok ()) :: programs) := by
  cases h with
  | all => exact .all
  | failed made rest _ split => exact .failed (work :: made) rest _ (by rw [split]; rfl)

/-- What every action keeps holds after works done one after another: those in front of the first
failure have ended well, and those behind it were not begun. -/
theorem Keeps.forM {Holds : List (Program (Except (Abort ε) Unit)) → Run → σ → Prop}
    (keeps : Keeps host Holds) (front : List (Program (Except (Abort ε) Unit)))
    {works : List (Work ε Unit)} {result : Except (Abort ε) Unit} {r r' : Run} {s s' : σ}
    (holds : Holds (front ++ works.map (·.run)) r s)
    (h : Run.execute host (works.forM id).run r s = ((result, r'), s')) :
    ∃ programs, Sequence works result programs ∧ Holds (front ++ programs) r' s' := by
  induction works generalizing front r s with
  | nil =>
    cases h
    exact ⟨[], .all, holds⟩
  | cons work works ih =>
    rcases hwork : Run.execute host work.run r s with ⟨⟨ended, r₁⟩, s₁⟩
    rw [execute_forM_cons id work works hwork] at h
    have first := keeps.execute (i := front.length) holds (by simp) hwork
    rw [List.set_append_right _ _ (Nat.le_refl _), Nat.sub_self, List.map_cons,
      List.set_cons_zero] at first
    cases ended with
    | error e =>
      cases h
      exact ⟨_, .failed [] works work rfl, first⟩
    | ok =>
      rw [List.append_cons] at first
      obtain ⟨programs, sequence, later⟩ := ih _ first h
      exact ⟨_, sequence.cons work, by rwa [List.append_cons]⟩

/-- Works done one after another are as many of them as are done, carried out in order; the first
failure among their results is the result. -/
theorem execute_forM_eq_executeAll {works : List (Work ε Unit)} {result : Except (Abort ε) Unit}
    {r r' : Run} {s s' : σ} (h : Run.execute host (works.forM id).run r s = ((result, r'), s')) :
    ∃ count results,
      Run.executeAll host [] ((works.take count).map (·.run)) r s = ((results, r'), s') ∧
      results.forM id = result ∧ (result = .ok () → works.take count = works) := by
  induction works generalizing r s with
  | nil =>
    cases h
    exact ⟨0, [], rfl, rfl, fun _ => rfl⟩
  | cons work works ih =>
    rcases hwork : Run.execute host work.run r s with ⟨⟨ended, r₁⟩, s₁⟩
    rw [execute_forM_cons id work works hwork] at h
    cases ended with
    | error e =>
      cases h
      refine ⟨1, [.error e], ?_, rfl, nofun⟩
      have nothing : ([] : List (Program (Except (Abort ε) Unit))).mapM (Run.execute host ·) r' s' =
        (([], r'), s') := rfl
      exact mapM_execute_cons hwork nothing
    | ok =>
      obtain ⟨count, results, rest, first, all⟩ := ih h
      refine ⟨count + 1, .ok () :: results, mapM_execute_cons hwork rest, first, fun ended => ?_⟩
      rw [List.take_succ_cons, all ended]

/-- A failure among the first results is the first failure. -/
theorem forM_eq_error_of_take {results : List (Except (Abort ε) Unit)} {count : Nat} {e : Abort ε}
    (h : (results.take count).forM id = .error e) : results.forM id = .error e := by
  rw [← List.take_append_drop count results]
  refine (List.forM_append (f := id)).trans ?_
  change (do (results.take count).forM id; (results.drop count).forM id) = _
  rw [h]
  rfl

end Run

/-! ## What programs end with -/

namespace Program

/-- Whatever the answers, the program ends with a result of this kind. -/
inductive EndsWith (kind : α → Prop) : Program α → Prop where
  | done {a : α} (holds : kind a) : EndsWith kind (.done a)
  | ask {action : Action} {next : action.Answer → Program α}
    (later : ∀ answer, EndsWith kind (next answer)) : EndsWith kind (.ask action next)

variable {kind : α → Prop}

theorem ends_anyhow (p : Program α) : EndsWith (fun _ => True) p := by
  induction p with
  | done a => exact .done trivial
  | ask action next ih => exact .ask ih

theorem EndsWith.bind {β : Type} {before : β → Prop} {p : Program β} {k : β → Program α}
    (h : EndsWith before p) (later : ∀ b, before b → EndsWith kind (k b)) :
    EndsWith kind (p.bind k) := by
  induction h with
  | done holds => exact later _ holds
  | ask _ ih => exact .ask ih

/-- Work fails as both its parts do. -/
theorem endsWith_bind {β ε : Type} {failure : ε → Prop} {work : ExceptT ε Program β}
    {next : β → ExceptT ε Program α}
    (first : EndsWith (fun result => ∀ e, result = .error e → failure e) work.run)
    (later : ∀ b, EndsWith (fun result => ∀ e, result = .error e → failure e) (next b).run) :
    EndsWith (fun result => ∀ e, result = .error e → failure e) (work >>= next).run := by
  refine EndsWith.bind first fun result fails => ?_
  cases result with
  | error e =>
    refine .done fun e same => ?_
    cases same
    exact fails _ rfl
  | ok b => exact later b

end Program

namespace Run

open Program (EndsWith)

variable {host : Host (StateM σ)} {kind : α → Prop}

/-- Several programs that end with results of a kind do so under every schedule. -/
theorem keeps_ends : Keeps host fun (programs : List (Program α)) _ _ =>
    ∀ p ∈ programs, EndsWith kind p := by
  intro programs i action next r r' s s' answer ends here _ p member
  rcases List.mem_or_eq_of_mem_set member with before | rfl
  · exact ends p before
  · cases ends _ (List.mem_of_getElem? here) with
    | ask later => exact later answer

theorem kind_of_ends {a : α} (h : EndsWith kind (.done a)) : kind a := by
  cases h with
  | done holds => exact holds

theorem executeAll_ends {schedule : List Nat} {programs : List (Program α)} {results : List α}
    {r r' : Run} {s s' : σ} (ends : ∀ p ∈ programs, EndsWith kind p)
    (h : executeAll host schedule programs r s = ((results, r'), s')) : ∀ a ∈ results, kind a :=
  fun _ member => kind_of_ends (keeps_ends.executeAll ends h _ (List.mem_map_of_mem member))

theorem execute_ends {p : Program α} {a : α} {r r' : Run} {s s' : σ} (ends : EndsWith kind p)
    (h : execute host p r s = ((a, r'), s')) : kind a := by
  have one : ∀ q ∈ [p], EndsWith kind q := by simpa using ends
  exact kind_of_ends (keeps_ends.execute one (i := 0) rfl h _ (by simp))

end Run

end SchemaCompiler
