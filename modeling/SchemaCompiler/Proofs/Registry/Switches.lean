import Mathlib.Data.List.Induction
import SchemaCompiler.Registry

/-!
The switches of registered generators.

Whatever is registered, accepted or not, all switches of a registry differ from one another and from
the global ones, and a registration is refused exactly when they no longer would.
-/

namespace SchemaCompiler

variable {γ : Type}

/-- A call that changes a registry. -/
inductive RegistryCall (γ : Type) where
  | register (generator : γ) (activationSwitch : String) (optionsSwitch : Option String)
    (help : String)
  | allowPlugins (pluginPrefix : String)

/-- The binding of a registered generator. -/
def Binding.registered (generator : γ) (activationSwitch : String) (optionsSwitch : Option String)
    (help : String) : Binding γ where
  generator
  name := Registry.generatorName activationSwitch
  activationSwitch
  optionsSwitch
  help
  discovered := false

namespace RegistryCall

/-- The binding that is asked for. -/
def binding? : RegistryCall γ → Option (Binding γ)
  | register generator activationSwitch optionsSwitch help =>
    some (.registered generator activationSwitch optionsSwitch help)
  | allowPlugins _ => none

def pluginPrefix? : RegistryCall γ → Option String
  | register .. => none
  | allowPlugins pluginPrefix => some pluginPrefix

end RegistryCall

/-- All switches differ, and none of them is a global one. -/
def SwitchesApart (bindings : List (Binding γ)) : Prop :=
  (bindings.flatMap (·.switches)).Nodup ∧
    ∀ switch ∈ bindings.flatMap (·.switches), switch ∉ globalSwitches

instance (bindings : List (Binding γ)) : Decidable (SwitchesApart bindings) :=
  inferInstanceAs (Decidable (_ ∧ _))

theorem switchesApart_append_iff {bindings others : List (Binding γ)} :
    SwitchesApart (bindings ++ others) ↔ SwitchesApart bindings ∧ SwitchesApart others ∧
      ∀ switch ∈ others.flatMap (·.switches), switch ∉ bindings.flatMap (·.switches) := by
  have apart : (∀ a ∈ bindings.flatMap (·.switches), ∀ b ∈ others.flatMap (·.switches), a ≠ b) ↔
      ∀ switch ∈ others.flatMap (·.switches), switch ∉ bindings.flatMap (·.switches) := by
    constructor
    · intro differ switch new old
      exact differ switch old switch new rfl
    · rintro differ a old b new rfl
      exact differ a new old
  unfold SwitchesApart
  rw [List.flatMap_append, List.nodup_append, List.forall_mem_append, apart]
  exact ⟨fun ⟨⟨h, h', d⟩, g, g'⟩ => ⟨⟨h, g⟩, ⟨h', g'⟩, d⟩,
    fun ⟨⟨h, g⟩, ⟨h', g'⟩, d⟩ => ⟨⟨h, h', d⟩, g, g'⟩⟩

namespace Registry

variable (generator : γ) (activationSwitch : String) (optionsSwitch : Option String)
  (help : String)

/-! ## One registration -/

/-- A single binding is in order if its two switches differ and are not global. -/
theorem switchesApart_registered_iff :
    SwitchesApart [Binding.registered generator activationSwitch optionsSwitch help] ↔
      optionsSwitch ≠ some activationSwitch ∧
        ∀ switch ∈ activationSwitch :: optionsSwitch.toList, switch ∉ globalSwitches := by
  have switches : [Binding.registered generator activationSwitch optionsSwitch help].flatMap
      (·.switches) = activationSwitch :: optionsSwitch.toList := List.flatMap_singleton _ _
  have distinct : (activationSwitch :: optionsSwitch.toList).Nodup ↔
      optionsSwitch ≠ some activationSwitch := by
    cases optionsSwitch <;> simp [eq_comm]
  rw [SwitchesApart, switches, distinct]

def withBinding (r : Registry γ) (binding : Binding γ) : Registry γ :=
  { r with bindings := r.bindings ++ [binding] }

variable {generator activationSwitch optionsSwitch help} {r : Registry γ}

theorem register_of_apart
    (apart : SwitchesApart
      (r.bindings ++ [.registered generator activationSwitch optionsSwitch help])) :
    r.register generator activationSwitch optionsSwitch help =
      .ok (r.withBinding (.registered generator activationSwitch optionsSwitch help)) := by
  obtain ⟨-, own, differ⟩ := switchesApart_append_iff.mp apart
  obtain ⟨distinct, plain⟩ := (switchesApart_registered_iff _ _ _ _).mp own
  rw [List.flatMap_singleton] at differ
  have free : (activationSwitch :: optionsSwitch.toList).find?
      (globalSwitches ++ r.switches).contains = none := by
    rw [List.find?_eq_none]
    intro switch mine
    rw [List.contains_iff_mem, List.mem_append]
    rintro (taken | taken)
    · exact plain switch mine taken
    · exact differ switch mine taken
  rw [register, if_neg distinct]
  simp only [free]
  rfl

theorem register_of_not_apart (before : SwitchesApart r.bindings)
    (clash : ¬SwitchesApart
      (r.bindings ++ [.registered generator activationSwitch optionsSwitch help])) :
    ∃ switch ∈ activationSwitch :: optionsSwitch.toList,
      r.register generator activationSwitch optionsSwitch help =
        .error (.duplicateSwitch switch) := by
  rw [register]
  split
  · exact ⟨activationSwitch, List.mem_cons_self, rfl⟩
  · next distinct =>
    simp only
    split
    · next switch taken => exact ⟨switch, List.mem_of_find?_eq_some taken, rfl⟩
    · next free =>
      refine absurd (switchesApart_append_iff.mpr ⟨before, ?_, ?_⟩) clash
      · refine (switchesApart_registered_iff _ _ _ _).mpr ⟨distinct, fun switch mine taken => ?_⟩
        have untaken := List.find?_eq_none.mp free switch mine
        exact untaken (List.contains_iff_mem.mpr (List.mem_append_left _ taken))
      · rw [List.flatMap_singleton]
        intro switch mine taken
        have untaken := List.find?_eq_none.mp free switch mine
        exact untaken (List.contains_iff_mem.mpr (List.mem_append_right _ taken))

/-! ## Calls in a row -/

def perform (r : Registry γ) : RegistryCall γ → Except RegistryError (Registry γ)
  | .register generator activationSwitch optionsSwitch help =>
    r.register generator activationSwitch optionsSwitch help
  | .allowPlugins pluginPrefix => .ok (r.allowPlugins pluginPrefix)

/-- The registry behind a call, which is the one before it if the call fails. -/
def next (r : Registry γ) (call : RegistryCall γ) : Registry γ :=
  match r.perform call with
  | .ok changed => changed
  | .error _ => r

def after (calls : List (RegistryCall γ)) : Registry γ := calls.foldl next empty

theorem after_concat (calls : List (RegistryCall γ)) (call : RegistryCall γ) :
    after (calls ++ [call]) = (after calls).next call :=
  List.foldl_append

theorem next_register (before : SwitchesApart r.bindings) :
    r.next (.register generator activationSwitch optionsSwitch help) =
      if SwitchesApart (r.bindings ++ [.registered generator activationSwitch optionsSwitch help])
      then r.withBinding (.registered generator activationSwitch optionsSwitch help)
      else r := by
  unfold next perform
  by_cases apart : SwitchesApart
      (r.bindings ++ [.registered generator activationSwitch optionsSwitch help])
  · rw [if_pos apart]
    simp only [register_of_apart apart]
  · obtain ⟨switch, -, refused⟩ := register_of_not_apart before apart
    rw [if_neg apart]
    simp only [refused]

/-- What holds of a registry after any calls. -/
structure Kept (calls : List (RegistryCall γ)) (r : Registry γ) : Prop where
  apart : SwitchesApart r.bindings
  ordered : r.bindings.Sublist (calls.filterMap RegistryCall.binding?)
  allowed : r.pluginPrefix = (calls.filterMap RegistryCall.pluginPrefix?).getLast?

theorem Kept.next {calls : List (RegistryCall γ)} (kept : Kept calls r) (call : RegistryCall γ) :
    Kept (calls ++ [call]) (r.next call) := by
  cases call with
  | register generator activationSwitch optionsSwitch help =>
    have asked : (calls ++ [RegistryCall.register generator activationSwitch optionsSwitch
        help]).filterMap RegistryCall.binding? = calls.filterMap RegistryCall.binding? ++
          [.registered generator activationSwitch optionsSwitch help] := by
      rw [List.filterMap_append]
      rfl
    have unasked : (calls ++ [RegistryCall.register generator activationSwitch optionsSwitch
        help]).filterMap RegistryCall.pluginPrefix? =
          calls.filterMap RegistryCall.pluginPrefix? := by
      rw [List.filterMap_append]
      exact List.append_nil _
    rw [next_register kept.apart]
    split
    · next apart =>
      exact ⟨apart, asked ▸ kept.ordered.append (List.Sublist.refl _), unasked ▸ kept.allowed⟩
    · refine ⟨kept.apart, ?_, unasked ▸ kept.allowed⟩
      exact asked ▸ kept.ordered.trans (List.sublist_append_left _ _)
  | allowPlugins pluginPrefix =>
    refine ⟨kept.apart, ?_, ?_⟩
    · rw [List.filterMap_append]
      exact kept.ordered.trans (List.sublist_append_left _ _)
    · rw [List.filterMap_append]
      exact List.getLast?_concat.symm

theorem kept_after (calls : List (RegistryCall γ)) : Kept calls (after calls) := by
  induction calls using List.reverseRecOn with
  | nil => exact ⟨by simp [SwitchesApart, after, empty], List.Sublist.refl _, rfl⟩
  | append_singleton calls call ih =>
    rw [after_concat]
    exact ih.next call

/-- Registered bindings are those of registrations. -/
theorem not_discovered_after (calls : List (RegistryCall γ)) :
    ∀ binding ∈ (after calls).bindings, binding.discovered = false := by
  intro binding member
  obtain ⟨call, -, asked⟩ := List.mem_filterMap.mp ((kept_after calls).ordered.subset member)
  cases call with
  | register =>
    cases asked
    rfl
  | allowPlugins => cases asked

end Registry

end SchemaCompiler
