import Mathlib.Data.List.Induction
import SchemaCompiler.Cancel

/-!
Forests of contexts.

Calls make contexts, anew or from others, and cancel them. The forest that grows keeps for each
context where it came from and which deadline was set on that occasion. Deadlines only flow down
from a context to those derived from it, while a cancellation reaches its whole tree and no other.
-/

namespace SchemaCompiler

/-- A call that makes a context or cancels one. Contexts are numbered in the order of their
making. -/
inductive ContextCall where
  | new
  | clone (source : Nat)
  | withTimeout (source timeout : Nat)
  | cancel (target : Nat)

/-- A context and where it came from. -/
structure ContextNode where
  context : CancelContext
  /-- The context that it was derived from. -/
  source : Option Nat
  /-- The deadline set when it was derived. -/
  set : Deadline

structure ContextForest where
  cancellations : Cancellations
  nodes : List ContextNode

namespace Deadline

/-- The earlier of the first of some instants and a further deadline. -/
theorem earlier_min? (instants : List Instant) (d : Deadline) :
    earlier instants.min? d = (instants ++ d.toList).min? := by
  cases instants with
  | nil => cases d <;> rfl
  | cons first others =>
    cases d with
    | none =>
      rw [Option.toList_none, List.append_nil]
      rfl
    | some instant =>
      rw [Option.toList_some, List.cons_append, List.min?_cons', List.min?_cons', List.foldl_append]
      rfl

theorem earlier_none (d : Deadline) : d.earlier none = d := by
  cases d <;> rfl

end Deadline

namespace ContextForest

def empty : ContextForest := ⟨.empty, []⟩

def context? (f : ContextForest) (i : Nat) : Option CancelContext := f.nodes[i]?.map (·.context)

def deadline (f : ContextForest) (i : Nat) : Deadline := (f.context? i).bind (·.deadline)

def isCancelled (f : ContextForest) (i : Nat) : Bool :=
  (f.context? i).any (·.isCancelled f.cancellations)

def isDone (f : ContextForest) (i : Nat) (now : Instant) : Bool :=
  (f.context? i).any (·.isDone f.cancellations now)

/-- Adds a context that is made of another. -/
def derive (f : ContextForest) (source : Nat) (make : CancelContext → CancelContext)
    (set : Deadline) : ContextForest :=
  match f.context? source with
  | some c => { f with nodes := f.nodes ++ [⟨make c, some source, set⟩] }
  | none => f

def cancel (f : ContextForest) (target : Nat) : ContextForest :=
  match f.context? target with
  | some c => { f with cancellations := f.cancellations.cancel c }
  | none => f

/-- Nothing happens in calls on contexts that are not there. -/
def perform (f : ContextForest) (now : Instant) : ContextCall → ContextForest
  | .new =>
    let (context, cancellations) := f.cancellations.newContext
    ⟨cancellations, f.nodes ++ [⟨context, none, none⟩]⟩
  | .clone source => f.derive source id none
  | .withTimeout source timeout =>
    f.derive source (·.withTimeout now timeout) (.after now timeout)
  | .cancel target => f.cancel target

/-- The forest that calls have grown, each made at some instant. -/
def after (calls : List (Instant × ContextCall)) : ContextForest :=
  calls.foldl (fun f call => f.perform call.1 call.2) empty

theorem after_append (calls later : List (Instant × ContextCall)) :
    after (calls ++ later) = later.foldl (fun f call => f.perform call.1 call.2) (after calls) :=
  List.foldl_append

theorem after_concat (calls : List (Instant × ContextCall)) (now : Instant) (call : ContextCall) :
    after (calls ++ [(now, call)]) = (after calls).perform now call :=
  after_append calls [(now, call)]

/-! ## What a call does -/

/-- A node behind the others. -/
def add (f : ContextForest) (node : ContextNode) : ContextForest :=
  { f with nodes := f.nodes ++ [node] }

/-- A call plants a context, derives one from another, cancels one, or does nothing. -/
inductive Step (f : ContextForest) : ContextCall → ContextForest → Prop where
  | plant :
    Step f .new
      (add { f with cancellations := f.cancellations.newContext.2 }
        ⟨⟨f.cancellations.count, none⟩, none, none⟩)
  | derive {call : ContextCall} {source : Nat} {parent : ContextNode} {set : Deadline}
    (uncalled : ∀ target, call ≠ .cancel target) (there : f.nodes[source]? = some parent) :
    Step f call
      (f.add
        ⟨⟨parent.context.root, parent.context.deadline.earlier set⟩, some source, set⟩)
  | cancel {target : Nat} {node : ContextNode} (there : f.nodes[target]? = some node) :
    Step f (.cancel target) { f with cancellations := f.cancellations.cancel node.context }
  | nothing {call : ContextCall}
      (absent : ∀ target, call = .cancel target → f.nodes[target]? = none) :
    Step f call f

theorem step_derive (f : ContextForest) {call : ContextCall}
    (uncalled : ∀ target, call ≠ .cancel target) (source : Nat)
    {make : CancelContext → CancelContext} {set : Deadline}
    (makes : ∀ c, make c = ⟨c.root, c.deadline.earlier set⟩) :
    Step f call (f.derive source make set) := by
  unfold derive context?
  cases there : f.nodes[source]? with
  | none => exact .nothing fun target same => absurd same (uncalled target)
  | some parent =>
    have made : Step f call (f.add
        ⟨⟨parent.context.root, parent.context.deadline.earlier set⟩, some source, set⟩) :=
      .derive uncalled there
    rwa [← makes] at made

theorem step_perform (f : ContextForest) (now : Instant) (call : ContextCall) :
    Step f call (f.perform now call) := by
  cases call with
  | new => exact .plant
  | clone source =>
    refine step_derive f (by simp) source fun c => ?_
    rw [Deadline.earlier_none]
    rfl
  | withTimeout source timeout => exact step_derive f (by simp) source fun c => rfl
  | cancel target =>
    change Step f _ (f.cancel target)
    unfold ContextForest.cancel context?
    cases there : f.nodes[target]? with
    | none =>
      refine .nothing fun other same => ?_
      cases same
      exact there
    | some node => exact .cancel there

/-! ## How a forest is planted -/

/-- The node in a place is an older one, or the one just added. -/
theorem add_getElem? {f : ContextForest} {added node : ContextNode} {i : Nat} :
    (f.add added).nodes[i]? = some node ↔
      f.nodes[i]? = some node ∨ i = f.nodes.length ∧ node = added := by
  rw [add, List.getElem?_append]
  split
  · next older =>
    have different : i ≠ f.nodes.length := Nat.ne_of_lt older
    simp [different]
  · next newer =>
    have absent : f.nodes[i]? = none := List.getElem?_eq_none (Nat.not_lt.mp newer)
    rw [absent, List.getElem?_singleton]
    simp only [reduceCtorEq, false_or]
    split
    · next last =>
      have place : i = f.nodes.length := by omega
      simp [place, eq_comm]
    · next behind =>
      have place : i ≠ f.nodes.length := by omega
      simp [place]

theorem lt_length {f : ContextForest} {i : Nat} {node : ContextNode}
    (there : f.nodes[i]? = some node) : i < f.nodes.length :=
  (List.getElem?_eq_some_iff.mp there).1

/-- Roots are numbered apart, and every other context has the root of the one it was derived from
and the earlier of its deadline and the one set. -/
structure Planted (f : ContextForest) : Prop where
  numbered : ∀ {i : Nat} {node : ContextNode}, f.nodes[i]? = some node →
    node.context.root < f.cancellations.count
  free : ∀ {i : Nat} {node : ContextNode}, f.nodes[i]? = some node → node.source = none →
    node.context.deadline = none
  derived : ∀ {i source : Nat} {node : ContextNode}, f.nodes[i]? = some node →
    node.source = some source →
    source < i ∧ ∃ parent, f.nodes[source]? = some parent ∧
      node.context = ⟨parent.context.root, parent.context.deadline.earlier node.set⟩
  apart : ∀ {i j : Nat} {node other : ContextNode}, f.nodes[i]? = some node →
    f.nodes[j]? = some other → node.source = none → other.source = none →
      node.context.root = other.context.root → i = j

theorem planted_empty : Planted empty := by
  constructor <;> simp [empty]

theorem Planted.plant {f : ContextForest} (h : Planted f) :
    Planted (add { f with cancellations := f.cancellations.newContext.2 }
      ⟨⟨f.cancellations.count, none⟩, none, none⟩) where
  numbered there := by
    rcases add_getElem?.mp there with older | ⟨-, rfl⟩
    · exact Nat.lt_succ_of_lt (h.numbered older)
    · exact Nat.lt_succ_self _
  free there root := by
    rcases add_getElem?.mp there with older | ⟨-, rfl⟩
    · exact h.free older root
    · rfl
  derived there from' := by
    rcases add_getElem?.mp there with older | ⟨-, rfl⟩
    · obtain ⟨before, parent, found, same⟩ := h.derived older from'
      exact ⟨before, parent, add_getElem?.mpr (.inl found), same⟩
    · cases from'
  apart there there' root root' same := by
    -- The new number is larger than those of all older roots.
    rcases add_getElem?.mp there with older | ⟨place, rfl⟩ <;>
      rcases add_getElem?.mp there' with older' | ⟨place', rfl⟩
    · exact h.apart older older' root root' same
    · exact absurd same (Nat.ne_of_lt (h.numbered older))
    · exact absurd same.symm (Nat.ne_of_lt (h.numbered older'))
    · exact place.trans place'.symm

theorem Planted.derive {f : ContextForest} (h : Planted f) {source : Nat} {parent : ContextNode}
    (there : f.nodes[source]? = some parent) (set : Deadline) :
    Planted (f.add
      ⟨⟨parent.context.root, parent.context.deadline.earlier set⟩, some source, set⟩) where
  numbered there' := by
    rcases add_getElem?.mp there' with older | ⟨-, rfl⟩
    · exact h.numbered older
    · have number := h.numbered there
      exact number
  free there' root := by
    rcases add_getElem?.mp there' with older | ⟨-, rfl⟩
    · exact h.free older root
    · cases root
  derived there' from' := by
    rcases add_getElem?.mp there' with older | ⟨place, rfl⟩
    · obtain ⟨before, parent, found, same⟩ := h.derived older from'
      exact ⟨before, parent, add_getElem?.mpr (.inl found), same⟩
    · cases from'
      exact ⟨place ▸ lt_length there, parent, add_getElem?.mpr (.inl there), rfl⟩
  apart there there' root root' same := by
    rcases add_getElem?.mp there with older | ⟨-, rfl⟩
    · rcases add_getElem?.mp there' with older' | ⟨-, rfl⟩
      · exact h.apart older older' root root' same
      · cases root'
    · cases root

theorem Planted.step {f g : ContextForest} {call : ContextCall} (h : Planted f)
    (step : Step f call g) : Planted g := by
  cases step with
  | plant => exact h.plant
  | derive _ there => exact h.derive there _
  | cancel _ => exact ⟨h.numbered, h.free, h.derived, h.apart⟩
  | nothing _ => exact h

theorem planted_after (calls : List (Instant × ContextCall)) : Planted (after calls) := by
  induction calls using List.reverseRecOn with
  | nil => exact planted_empty
  | append_singleton calls call ih =>
    rw [after_concat]
    exact ih.step (step_perform _ _ _)

/-! ## How a forest grows -/

/-- Contexts stay as they were made, and cancelled roots stay cancelled. -/
structure Grows (f g : ContextForest) : Prop where
  nodes : f.nodes <+: g.nodes
  cancelled : f.cancellations.cancelled ⊆ g.cancellations.cancelled

theorem Step.grows {f g : ContextForest} {call : ContextCall} (step : Step f call g) :
    Grows f g := by
  cases step with
  | plant => exact ⟨List.prefix_append _ _, List.Subset.refl _⟩
  | derive => exact ⟨List.prefix_append _ _, List.Subset.refl _⟩
  | cancel => exact ⟨List.prefix_refl _, List.subset_cons_self _ _⟩
  | nothing => exact ⟨List.prefix_refl _, List.Subset.refl _⟩

theorem grows_append (calls later : List (Instant × ContextCall)) :
    Grows (after calls) (after (calls ++ later)) := by
  induction later using List.reverseRecOn with
  | nil =>
    rw [List.append_nil]
    exact ⟨List.prefix_refl _, List.Subset.refl _⟩
  | append_singleton later call ih =>
    rw [← List.append_assoc, after_concat]
    have step := (step_perform (after (calls ++ later)) call.1 call.2).grows
    exact ⟨ih.nodes.trans step.nodes, List.Subset.trans ih.cancelled step.cancelled⟩

/-- The forest was smaller when fewer of the calls had been made. -/
theorem grows_of_prefix {before calls : List (Instant × ContextCall)} (early : before <+: calls) :
    Grows (after before) (after calls) := by
  obtain ⟨later, rfl⟩ := early
  exact grows_append before later

theorem Grows.getElem? {f g : ContextForest} (h : Grows f g) {i : Nat} {node : ContextNode}
    (there : f.nodes[i]? = some node) : g.nodes[i]? = some node := by
  obtain ⟨more, same⟩ := h.nodes
  rw [← same, List.getElem?_append_left (lt_length there)]
  exact there

/-! ## Descent -/

/-- The context is derived from another along a chain on which these deadlines were set. -/
inductive Derived (f : ContextForest) (i : Nat) : Nat → List Instant → Prop where
  | self (made : i < f.nodes.length) : Derived f i i []
  | step {j k : Nat} {node : ContextNode} {set : List Instant} (chain : Derived f i j set)
    (there : f.nodes[k]? = some node) (source : node.source = some j) :
    Derived f i k (set ++ node.set.toList)

/-- The context was made anew. -/
def IsRoot (f : ContextForest) (i : Nat) : Prop :=
  ∃ node, f.nodes[i]? = some node ∧ node.source = none

/-- Two contexts are derived from one root. -/
def SameTree (f : ContextForest) (i j : Nat) : Prop :=
  ∃ root set set', f.IsRoot root ∧ f.Derived root i set ∧ f.Derived root j set'

variable {f : ContextForest}

theorem exists_node {i : Nat} (made : i < f.nodes.length) : ∃ node, f.nodes[i]? = some node :=
  ⟨_, List.getElem?_eq_getElem made⟩

theorem Derived.made {i j : Nat} {set : List Instant} (h : f.Derived i j set) :
    i < f.nodes.length ∧ j < f.nodes.length := by
  induction h with
  | self made => exact ⟨made, made⟩
  | step _ there _ ih => exact ⟨ih.1, lt_length there⟩

/-- Down a chain the root stays and the deadline is the earliest of those set. -/
theorem Derived.context (planted : Planted f) {i j : Nat} {set : List Instant}
    (h : f.Derived i j set) {ancestor : ContextNode} (there : f.nodes[i]? = some ancestor) :
    ∃ node, f.nodes[j]? = some node ∧ node.context =
      ⟨ancestor.context.root, (ancestor.context.deadline.toList ++ set).min?⟩ := by
  induction h with
  | self _ =>
    refine ⟨ancestor, there, ?_⟩
    obtain ⟨root, deadline⟩ := ancestor.context
    rw [List.append_nil]
    cases deadline <;> rfl
  | step chain there' source ih =>
    obtain ⟨parent, found, same⟩ := ih
    obtain ⟨-, parent', found', same'⟩ := planted.derived there' source
    obtain rfl : parent = parent' := Option.some.inj (found.symm.trans found')
    refine ⟨_, there', ?_⟩
    rw [same', same, Deadline.earlier_min?, List.append_assoc]

theorem SameTree.made {i j : Nat} (h : f.SameTree i j) :
    i < f.nodes.length ∧ j < f.nodes.length := by
  obtain ⟨_, _, _, _, chain, chain'⟩ := h
  exact ⟨chain.made.2, chain'.made.2⟩

theorem Planted.exists_root (planted : Planted f) {j : Nat} (made : j < f.nodes.length) :
    ∃ i set, f.IsRoot i ∧ f.Derived i j set := by
  -- A context stands behind the one it was derived from, so following sources comes to an end.
  induction j using Nat.strongRecOn with
  | ind j ih =>
    obtain ⟨node, there⟩ := exists_node made
    cases source : node.source with
    | none => exact ⟨j, [], ⟨node, there, source⟩, .self made⟩
    | some parent =>
      obtain ⟨before, _, found, -⟩ := planted.derived there source
      obtain ⟨i, set, root, chain⟩ := ih parent before (lt_length found)
      exact ⟨i, _, root, chain.step there source⟩

/-- Contexts have one root exactly when their roots have one number. -/
theorem Planted.sameTree_iff (planted : Planted f) {i j : Nat} {node other : ContextNode}
    (there : f.nodes[i]? = some node) (there' : f.nodes[j]? = some other) :
    f.SameTree i j ↔ node.context.root = other.context.root := by
  have number {i root : Nat} {set : List Instant} {node : ContextNode}
      (there : f.nodes[i]? = some node) (chain : f.Derived root i set) :
      ∃ top, f.nodes[root]? = some top ∧ node.context.root = top.context.root := by
    obtain ⟨top, found⟩ := exists_node chain.made.1
    obtain ⟨same, found', context⟩ := chain.context planted found
    obtain rfl : node = same := Option.some.inj (there.symm.trans found')
    exact ⟨top, found, by rw [context]⟩
  constructor
  · rintro ⟨root, set, set', -, chain, chain'⟩
    obtain ⟨top, found, same⟩ := number there chain
    obtain ⟨top', found', same'⟩ := number there' chain'
    obtain rfl : top = top' := Option.some.inj (found.symm.trans found')
    exact same.trans same'.symm
  · intro equal
    -- Each has a root of its own, and roots of one number are one.
    obtain ⟨root, set, ⟨top, found, anew⟩, chain⟩ := planted.exists_root (lt_length there)
    obtain ⟨root', set', ⟨top', found', anew'⟩, chain'⟩ := planted.exists_root (lt_length there')
    obtain ⟨_, again, same⟩ := number there chain
    obtain ⟨_, again', same'⟩ := number there' chain'
    obtain rfl := Option.some.inj (found.symm.trans again)
    obtain rfl := Option.some.inj (found'.symm.trans again')
    obtain rfl : root = root' :=
      planted.apart found found' anew anew' (same.symm.trans (equal.trans same'))
    exact ⟨root, set, set', ⟨top, found, anew⟩, chain, chain'⟩

end ContextForest

end SchemaCompiler
