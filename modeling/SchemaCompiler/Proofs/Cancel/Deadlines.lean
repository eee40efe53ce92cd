import SchemaCompiler.Proofs.Cancel.Forest

/-!
Deadlines and cancellation in a forest of contexts.

Down a chain of derivations deadlines only come forward, and what is done stays done, below and
later. A cancellation reaches the whole tree of its target and no other, and time never makes a
context cancelled.
-/

namespace SchemaCompiler.ContextForest

variable {f : ContextForest}

/-! ## Single contexts -/

theorem context?_eq {i : Nat} {node : ContextNode} (there : f.nodes[i]? = some node) :
    f.context? i = some node.context := by
  rw [context?, there]
  rfl

theorem deadline_eq {i : Nat} {node : ContextNode} (there : f.nodes[i]? = some node) :
    f.deadline i = node.context.deadline := by
  rw [deadline, context?_eq there]
  rfl

theorem isCancelled_iff {i : Nat} {node : ContextNode} (there : f.nodes[i]? = some node) :
    f.isCancelled i = true ↔ node.context.root ∈ f.cancellations.cancelled := by
  rw [isCancelled, context?_eq there]
  exact List.contains_iff_mem

theorem isDone_iff {i : Nat} {node : ContextNode} (there : f.nodes[i]? = some node)
    (now : Instant) :
    f.isDone i now = true ↔
      node.context.root ∈ f.cancellations.cancelled ∨
        ∃ d ≤ now, node.context.deadline = some d := by
  have past : node.context.deadline.isPast now = true ↔
      ∃ d ≤ now, node.context.deadline = some d := by
    cases node.context.deadline <;> simp [Deadline.isPast]
  rw [isDone, context?_eq there, ← past]
  change (node.context.isCancelled f.cancellations || _) = true ↔ _
  rw [Bool.or_eq_true]
  exact or_congr_left List.contains_iff_mem

/-- What is found of a context is found of one that was made. -/
theorem exists_node_of_any {i : Nat} {p : CancelContext → Bool}
    (h : (f.context? i).any p = true) : ∃ node, f.nodes[i]? = some node := by
  cases there : f.nodes[i]? with
  | some node => exact ⟨node, rfl⟩
  | none =>
    rw [context?, there] at h
    cases h

/-! ## Down a chain and later -/

/-- The deadline down a chain is the earliest of the one above and those set on the way. -/
theorem Derived.deadline (planted : Planted f) {i j : Nat} {set : List Instant}
    (h : f.Derived i j set) : f.deadline j = ((f.deadline i).toList ++ set).min? := by
  obtain ⟨ancestor, there⟩ := exists_node h.made.1
  obtain ⟨node, there', context⟩ := h.context planted there
  rw [deadline_eq there, deadline_eq there', context]

theorem Derived.deadline_le (planted : Planted f) {i j : Nat} {set : List Instant}
    (h : f.Derived i j set) {d : Instant} (given : f.deadline i = some d) :
    ∃ d' ≤ d, f.deadline j = some d' := by
  rw [h.deadline planted, given]
  cases least : ((some d).toList ++ set).min? with
  | none => simp at least
  | some d' => exact ⟨d', (List.min?_eq_some_iff.mp least).2 d (by simp), rfl⟩

theorem Derived.isDone (planted : Planted f) {i j : Nat} {set : List Instant}
    (h : f.Derived i j set) {now : Instant} (done : f.isDone i now = true) :
    f.isDone j now = true := by
  obtain ⟨ancestor, there⟩ := exists_node h.made.1
  obtain ⟨node, there', context⟩ := h.context planted there
  rw [isDone_iff there']
  rcases (isDone_iff there now).mp done with cancelled | ⟨d, past, given⟩
  · left
    rw [context]
    exact cancelled
  · right
    obtain ⟨d', le, given'⟩ := h.deadline_le planted ((deadline_eq there).trans given)
    exact ⟨d', Nat.le_trans le past, (deadline_eq there').symm.trans given'⟩

theorem Grows.isDone {f g : ContextForest} (h : Grows f g) {i : Nat} {now later : Instant}
    (le : now ≤ later) (done : f.isDone i now = true) : g.isDone i later = true := by
  obtain ⟨node, there⟩ := exists_node_of_any done
  rw [isDone_iff (h.getElem? there)]
  rcases (isDone_iff there now).mp done with cancelled | ⟨d, past, given⟩
  · exact .inl (h.cancelled cancelled)
  · exact .inr ⟨d, Nat.le_trans past le, given⟩

/-! ## Who is cancelled -/

theorem Step.mem_cancelled_iff {f g : ContextForest} {call : ContextCall} (step : Step f call g)
    (root : Nat) :
    root ∈ g.cancellations.cancelled ↔ root ∈ f.cancellations.cancelled ∨
      ∃ target node, call = .cancel target ∧ f.nodes[target]? = some node ∧
        node.context.root = root := by
  cases step with
  | plant => simp [add, Cancellations.newContext]
  | derive uncalled _ => simp [add, uncalled]
  | @cancel target node there =>
    have found : ∀ target' other, ContextCall.cancel target = .cancel target' →
        f.nodes[target']? = some other → other = node := by
      rintro target' other ⟨⟩ there'
      exact Option.some.inj (there'.symm.trans there)
    simp only [Cancellations.cancel, List.mem_cons]
    constructor
    · rintro (rfl | before)
      · exact .inr ⟨target, node, rfl, there, rfl⟩
      · exact .inl before
    · rintro (before | ⟨target', other, same, there', rfl⟩)
      · exact .inr before
      · rw [found target' other same there']
        exact .inl rfl
  | nothing absent =>
    refine ⟨.inl, ?_⟩
    rintro (before | ⟨target, node, called, there, -⟩)
    · exact before
    · rw [absent target called] at there
      cases there

theorem mem_cancelled_after (calls : List (Instant × ContextCall)) (root : Nat) :
    root ∈ (after calls).cancellations.cancelled ↔
      ∃ before now target node, before ++ [(now, .cancel target)] <+: calls ∧
        (after before).nodes[target]? = some node ∧ node.context.root = root := by
  -- By induction on the last call: the forest of a cancellation is the one just before it, so the
  -- calls up to a cancellation are a prefix.
  induction calls using List.reverseRecOn with
  | nil => simp [after, empty, Cancellations.empty]
  | append_singleton calls call ih =>
    rw [after_concat, (step_perform _ _ _).mem_cancelled_iff, ih]
    constructor
    · rintro (⟨before, now, target, node, early, rest⟩ | ⟨target, node, called, rest⟩)
      · exact ⟨before, now, target, node, early.trans (List.prefix_append _ _), rest⟩
      · exact ⟨calls, call.1, target, node, called ▸ List.prefix_refl _, rest⟩
    · rintro ⟨before, now, target, node, early, rest⟩
      rcases List.prefix_concat_iff.mp early with last | early
      · obtain ⟨rfl, same⟩ := List.append_inj' last rfl
        cases same
        exact .inr ⟨target, node, rfl, rest⟩
      · exact .inl ⟨before, now, target, node, early, rest⟩

theorem isCancelled_after_iff (calls : List (Instant × ContextCall)) (i : Nat) :
    (after calls).isCancelled i = true ↔
      ∃ before now target, before ++ [(now, .cancel target)] <+: calls ∧
        target < (after before).nodes.length ∧ (after calls).SameTree target i := by
  have planted := planted_after calls
  have kept {before : List (Instant × ContextCall)} {last : Instant × ContextCall}
      (early : before ++ [last] <+: calls) : Grows (after before) (after calls) :=
    grows_of_prefix ((List.prefix_append _ _).trans early)
  constructor
  · intro cancelled
    obtain ⟨node, there⟩ := exists_node_of_any cancelled
    obtain ⟨before, now, target, other, early, found, same⟩ :=
      (mem_cancelled_after calls _).mp ((isCancelled_iff there).mp cancelled)
    have tree := (planted.sameTree_iff ((kept early).getElem? found) there).mpr same
    exact ⟨before, now, target, early, lt_length found, tree⟩
  · rintro ⟨before, now, target, early, made, tree⟩
    obtain ⟨other, found⟩ := exists_node made
    obtain ⟨node, there⟩ := exists_node tree.made.2
    have same := (planted.sameTree_iff ((kept early).getElem? found) there).mp tree
    rw [isCancelled_iff there, mem_cancelled_after]
    exact ⟨before, now, target, other, early, found, same⟩

/-- A cancellation reaches exactly the tree of its target. -/
theorem isCancelled_cancel_iff (planted : Planted f) {target : Nat} (made : target < f.nodes.length)
    (i : Nat) :
    (f.cancel target).isCancelled i = true ↔ f.isCancelled i = true ∨ f.SameTree target i := by
  obtain ⟨node, there⟩ := exists_node made
  have result :
      f.cancel target = { f with cancellations := f.cancellations.cancel node.context } := by
    rw [cancel, context?_eq there]
  cases there' : f.nodes[i]? with
  | none =>
    have absent : f.context? i = none := by
      rw [context?, there']
      rfl
    have unmade : ¬f.SameTree target i := by
      intro tree
      obtain ⟨_, found⟩ := exists_node tree.made.2
      cases there'.symm.trans found
    simp [result, isCancelled, context?, there', unmade]
  | some other =>
    have there'' : (f.cancel target).nodes[i]? = some other := by
      rw [result]
      exact there'
    rw [isCancelled_iff there'', isCancelled_iff there', planted.sameTree_iff there there', result]
    simp [Cancellations.cancel, or_comm, eq_comm]

theorem deadline_cancel (f : ContextForest) (target i : Nat) :
    (f.cancel target).deadline i = f.deadline i := by
  unfold cancel
  split <;> rfl

/-- What holds of all forests of contexts, whatever calls made them at whatever instants. Down a
chain of derivations deadlines only come forward, to the earliest of those set, and what is done
stays done, below and later. A cancellation reaches exactly the tree of its target and moves no
deadline, and nothing but a cancellation in its tree makes a context cancelled. -/
theorem deadlines_down_cancellation_around (calls : List (Instant × ContextCall)) :
    (∀ i j set, (after calls).Derived i j set →
      (after calls).deadline j = (((after calls).deadline i).toList ++ set).min? ∧
      (∀ d, (after calls).deadline i = some d → ∃ d' ≤ d, (after calls).deadline j = some d') ∧
      ∀ now, (after calls).isDone i now = true → (after calls).isDone j now = true) ∧
    (∀ i, (after calls).IsRoot i → (after calls).deadline i = none) ∧
    (∀ i later now now', now ≤ now' → (after calls).isDone i now = true →
      (after (calls ++ later)).isDone i now' = true) ∧
    (∀ now target i, target < (after calls).nodes.length →
      ((after (calls ++ [(now, .cancel target)])).isCancelled i = true ↔
        (after calls).isCancelled i = true ∨ (after calls).SameTree target i) ∧
      (after (calls ++ [(now, .cancel target)])).deadline i = (after calls).deadline i) ∧
    ∀ i, (after calls).isCancelled i = true ↔
      ∃ before now target, before ++ [(now, .cancel target)] <+: calls ∧
        target < (after before).nodes.length ∧ (after calls).SameTree target i := by
  have planted := planted_after calls
  refine ⟨fun i j set chain => ?_, ?_, fun i later now now' le done => ?_,
    fun now target i made => ?_, isCancelled_after_iff calls⟩
  · exact ⟨chain.deadline planted, fun d => chain.deadline_le planted,
      fun now => chain.isDone planted⟩
  · rintro i ⟨node, there, anew⟩
    rw [deadline_eq there]
    exact planted.free there anew
  · exact (grows_append calls later).isDone le done
  · rw [after_concat]
    exact ⟨isCancelled_cancel_iff planted made i, deadline_cancel _ target i⟩

/-- Two trees. In the first a timeout is set, on a clone of that context another that changes
nothing, and then one that lies behind the end of the clock. -/
def sampleCalls : List (Instant × ContextCall) :=
  [(1, .new), (2, .withTimeout 0 5), (3, .clone 1), (4, .withTimeout 2 100),
    (5, .withTimeout 3 lastInstant), (6, .new)]

theorem sampleCalls_cancelled :
    (after sampleCalls).Derived 1 4 [104] ∧
      (after sampleCalls).deadline 4 = (((after sampleCalls).deadline 1).toList ++ [104]).min? ∧
      (after sampleCalls).isDone 1 7 = true ∧ (after sampleCalls).isDone 4 7 = true ∧
      (after (sampleCalls ++ [(8, .clone 5)])).isDone 1 9 = true ∧
      4 < (after sampleCalls).nodes.length ∧ (after sampleCalls).SameTree 4 0 ∧
      (after (sampleCalls ++ [(7, .cancel 4)])).isCancelled 0 = true ∧
      (after (sampleCalls ++ [(7, .cancel 4)])).deadline 0 = (after sampleCalls).deadline 0 := by
  obtain ⟨down, -, stays, cancels, -⟩ := deadlines_down_cancellation_around sampleCalls
  have made : 0 < (after sampleCalls).nodes.length ∧ 1 < (after sampleCalls).nodes.length ∧
      4 < (after sampleCalls).nodes.length := by decide
  have chain : (after sampleCalls).Derived 1 4 [104] := by
    have second := (Derived.self made.2.1).step (k := 2) rfl rfl
    have third := second.step (k := 3) rfl rfl
    exact third.step (k := 4) rfl rfl
  have above : (after sampleCalls).Derived 0 4 [7, 104] := by
    have first := (Derived.self made.1).step (k := 1) rfl rfl
    have second := first.step (k := 2) rfl rfl
    have third := second.step (k := 3) rfl rfl
    exact third.step (k := 4) rfl rfl
  have tree : (after sampleCalls).SameTree 4 0 :=
    ⟨0, _, _, ⟨_, rfl, rfl⟩, above, .self made.1⟩
  have done : (after sampleCalls).isDone 1 7 = true := by decide
  have cancelled := cancels 7 4 0 made.2.2
  exact ⟨chain, (down 1 4 [104] chain).1, done, (down 1 4 [104] chain).2.2 7 done,
    stays 1 [(8, .clone 5)] 7 9 (by decide) done, made.2.2, tree, cancelled.1.mpr (.inr tree),
    cancelled.2⟩

end SchemaCompiler.ContextForest
