import SchemaCompiler.Proofs.Registry.Switches
import SchemaCompiler.Proofs.Text.Pieces

/-!
The plugins that a command line names.

The bindings for a command line are those of the registered generators and behind them one for each
plugin that the arguments name, in the order in which they first do, unless one of its switches is a
registered generator's. All of their switches differ.
-/

namespace SchemaCompiler.Registry

variable {γ : Type}

/-! ## Names in arguments -/

/-- The argument is an activation or options switch of the plugin, with or without a value. -/
def NamesPlugin (arg name : String) : Prop :=
  name ≠ "" ∧ (∀ c ∈ name.toList, c.isAlphanum = true ∨ c = '_' ∨ c = '-') ∧
    ∃ ending ∈ ["_out", "_opt"],
      arg = "--" ++ name ++ ending ∨ ∃ value, arg = "--" ++ name ++ ending ++ "=" ++ value

theorem dropEnding?_eq_some_iff {ending cs front : List Char} :
    dropEnding? ending cs = some front ↔ cs = front ++ ending := by
  unfold dropEnding?
  constructor
  · intro h
    simp only at h
    split at h
    · next whole =>
      cases h
      exact whole.symm
    · cases h
  · rintro rfl
    simp

/-- A text has at most one of the two endings. -/
theorem out_ne_opt (front front' : List Char) :
    front ++ "_out".toList ≠ front' ++ "_opt".toList := by
  intro same
  have ending := List.append_inj_right' same (by simp)
  simp at ending

theorem isPluginName_iff {name : List Char} :
    isPluginName name = true ↔
      name ≠ [] ∧ ∀ c ∈ name, c.isAlphanum = true ∨ c = '_' ∨ c = '-' := by
  simp [isPluginName, isPluginNameChar, or_assoc]

theorem nameInSwitch_iff {switch front : List Char} :
    (dropEnding? "_out".toList switch <|> dropEnding? "_opt".toList switch) = some front ↔
      switch = front ++ "_out".toList ∨ switch = front ++ "_opt".toList := by
  cases out : dropEnding? "_out".toList switch with
  | some name =>
    have shape := dropEnding?_eq_some_iff.mp out
    have other : switch ≠ front ++ "_opt".toList := by
      rw [shape]
      exact out_ne_opt name front
    change some name = some front ↔ _
    rw [← out, dropEnding?_eq_some_iff]
    exact (or_iff_left other).symm
  | none =>
    have other : switch ≠ front ++ "_out".toList := by
      intro shape
      rw [dropEnding?_eq_some_iff.mpr shape] at out
      cases out
    change dropEnding? _ _ = some front ↔ _
    rw [dropEnding?_eq_some_iff]
    exact (or_iff_right other).symm

theorem mark_not_mem_switch {name : List Char} (good : isPluginName name = true)
    {ending : List Char} (plain : '=' ∉ ending) : '=' ∉ name ++ ending := by
  rw [List.mem_append]
  rintro (inside | behind)
  · have kind := (isPluginName_iff.mp good).2 '=' inside
    revert kind
    decide
  · exact plain behind

/-- The switch with or without a value, as characters. -/
theorem switch_toList_iff {arg name ending : String} {rest : List Char}
    (shape : arg.toList = '-' :: '-' :: rest) :
    (arg = "--" ++ name ++ ending ∨ ∃ value, arg = "--" ++ name ++ ending ++ "=" ++ value) ↔
      (rest = name.toList ++ ending.toList ∨
        ∃ value, rest = name.toList ++ ending.toList ++ '=' :: value) := by
  have bare : arg = "--" ++ name ++ ending ↔ rest = name.toList ++ ending.toList := by
    rw [← String.toList_inj, shape]
    simp
  have valued (value : String) : arg = "--" ++ name ++ ending ++ "=" ++ value ↔
      rest = name.toList ++ ending.toList ++ '=' :: value.toList := by
    rw [← String.toList_inj, shape]
    simp
  rw [bare]
  refine or_congr_right ⟨?_, ?_⟩
  · rintro ⟨value, same⟩
    exact ⟨value.toList, (valued value).mp same⟩
  · rintro ⟨value, same⟩
    refine ⟨String.ofList value, (valued _).mpr ?_⟩
    rw [String.toList_ofList]
    exact same

theorem takeWhile_switch_iff {arg name ending : String} {rest : List Char}
    (shape : arg.toList = '-' :: '-' :: rest) (good : isPluginName name.toList = true)
    (plain : '=' ∉ ending.toList) :
    rest.takeWhile (· ≠ '=') = name.toList ++ ending.toList ↔
      (arg = "--" ++ name ++ ending ∨ ∃ value, arg = "--" ++ name ++ ending ++ "=" ++ value) := by
  rw [Text.takeWhile_ne_eq_iff, switch_toList_iff shape]
  exact and_iff_right (mark_not_mem_switch good plain)

theorem map_ofList_filter_iff (found : Option (List Char)) (name : String) :
    (found.filter isPluginName).map String.ofList = some name ↔
      isPluginName name.toList = true ∧ found = some name.toList := by
  rw [Option.map_eq_some_iff]
  constructor
  · rintro ⟨front, kept, rfl⟩
    obtain ⟨same, good⟩ := Option.filter_eq_some_iff.mp kept
    rw [String.toList_ofList]
    exact ⟨good, same⟩
  · rintro ⟨good, same⟩
    exact ⟨name.toList, Option.filter_eq_some_iff.mpr ⟨same, good⟩, String.ofList_toList⟩

theorem pluginNameOf?_eq_some_iff {arg name : String} :
    pluginNameOf? arg.toList = some name ↔ NamesPlugin arg name := by
  have good : isPluginName name.toList = true ↔
      name ≠ "" ∧ ∀ c ∈ name.toList, c.isAlphanum = true ∨ c = '_' ∨ c = '-' := by
    rw [isPluginName_iff, ne_eq, String.toList_eq_nil_iff]
  rw [NamesPlugin, ← and_assoc, ← good]
  unfold pluginNameOf?
  split
  · next rest shape =>
    simp only [map_ofList_filter_iff, nameInSwitch_iff]
    refine and_congr_right fun good => ?_
    rw [takeWhile_switch_iff shape good (by simp), takeWhile_switch_iff shape good (by simp)]
    simp
  · next other =>
    have unnamed (ending : String) : ¬(arg = "--" ++ name ++ ending ∨
        ∃ value, arg = "--" ++ name ++ ending ++ "=" ++ value) := by
      rintro (rfl | ⟨value, rfl⟩) <;> simp at other
    simp [unnamed]

/-- An argument gives at most one name. -/
theorem NamesPlugin.unique {arg name other : String} (h : NamesPlugin arg name)
    (h' : NamesPlugin arg other) : name = other :=
  Option.some.inj ((pluginNameOf?_eq_some_iff.mpr h).symm.trans (pluginNameOf?_eq_some_iff.mpr h'))

/-! ## Names in the order of their appearance -/

/-- An argument gives the first name before any gives the second. -/
def NamedBefore (args : List String) (first second : String) : Prop :=
  ∃ front arg, front ++ [arg] <+: args ∧ NamesPlugin arg first ∧
    ∀ other ∈ front ++ [arg], ¬NamesPlugin other second

/-- The names that arguments give, in the order in which they first appear. -/
structure FirstNamed (args names : List String) : Prop where
  mem : ∀ name, name ∈ names ↔ ∃ arg ∈ args, NamesPlugin arg name
  order : names.Pairwise (NamedBefore args)

theorem NamedBefore.longer {args : List String} {first second : String}
    (h : NamedBefore args first second) (more : List String) :
    NamedBefore (args ++ more) first second := by
  obtain ⟨front, arg, early, rest⟩ := h
  exact ⟨front, arg, early.trans (List.prefix_append _ _), rest⟩

theorem NamedBefore.ne {args : List String} {first second : String}
    (h : NamedBefore args first second) : first ≠ second := by
  rintro rfl
  obtain ⟨front, arg, -, named, unnamed⟩ := h
  exact unnamed arg (by simp) named

theorem FirstNamed.nodup {args names : List String} (h : FirstNamed args names) : names.Nodup :=
  h.order.imp NamedBefore.ne

namespace FirstNamed

variable {args names : List String} {arg : String}

/-- The argument gives no name or one that is there. -/
theorem old (h : FirstNamed args names) (known : ∀ name, NamesPlugin arg name → name ∈ names) :
    FirstNamed (args ++ [arg]) names where
  mem name := by
    simp only [List.mem_append, List.mem_singleton, or_and_right, exists_or, exists_eq_left,
      ← h.mem]
    exact (or_iff_left_of_imp (known name)).symm
  order := h.order.imp fun before => before.longer [arg]

/-- The argument gives a further name. -/
theorem new (h : FirstNamed args names) {name : String} (named : NamesPlugin arg name)
    (unknown : name ∉ names) : FirstNamed (args ++ [arg]) (names ++ [name]) where
  mem other := by
    have given : NamesPlugin arg other ↔ other = name :=
      ⟨fun named' => named'.unique named, fun same => same ▸ named⟩
    simp only [List.mem_append, List.mem_singleton, or_and_right, exists_or, exists_eq_left,
      ← h.mem, given]
  order := by
    refine List.pairwise_append.mpr
      ⟨h.order.imp fun before => before.longer [arg], List.pairwise_singleton _ _, ?_⟩
    intro first member second last
    obtain rfl := List.mem_singleton.mp last
    obtain ⟨source, within, named'⟩ := (h.mem first).mp member
    obtain ⟨front, back, rfl⟩ := List.append_of_mem within
    have early : front ++ [source] <+: front ++ source :: back := ⟨back, by simp⟩
    refine ⟨front, source, early.trans (List.prefix_append _ _), named', fun other up also => ?_⟩
    exact unknown ((h.mem second).mpr ⟨other, early.subset up, also⟩)

end FirstNamed

theorem firstNamed_pluginNames (args : List String) :
    FirstNamed (args.takeWhile (· ≠ "--")) (pluginNames args) := by
  unfold pluginNames
  -- Names are collected back to front, so the induction is on the last argument scanned.
  induction args.takeWhile (· ≠ "--") using List.reverseRecOn with
  | nil => exact ⟨by simp, List.Pairwise.nil⟩
  | append_singleton scanned arg ih =>
    rw [List.filterMap_append, List.foldl_append]
    cases given : pluginNameOf? arg.toList with
    | none =>
      have last : [arg].filterMap (fun arg => pluginNameOf? arg.toList) = [] := by simp [given]
      rw [last]
      refine ih.old fun name named => ?_
      cases given.symm.trans (pluginNameOf?_eq_some_iff.mpr named)
    | some name =>
      have last : [arg].filterMap (fun arg => pluginNameOf? arg.toList) = [name] := by simp [given]
      have named := pluginNameOf?_eq_some_iff.mp given
      rw [last, List.foldl_cons, List.foldl_nil]
      split
      · next known =>
        refine ih.old fun other named' => ?_
        rw [named'.unique named]
        exact List.mem_reverse.mpr (List.contains_iff_mem.mp known)
      · next unknown =>
        rw [List.reverse_cons]
        refine ih.new named fun known => unknown ?_
        exact List.contains_iff_mem.mpr (List.mem_reverse.mp known)

/-! ## Bindings of plugins -/

variable (pluginPrefix : String) (plugin : String → String → γ)

theorem switches_pluginBinding (name : String) :
    (pluginBinding pluginPrefix plugin name).switches = [name ++ "_out", name ++ "_opt"] := rfl

theorem mem_discovered_iff {names : List String} {switch : String} :
    switch ∈ (names.map (pluginBinding pluginPrefix plugin)).flatMap (·.switches) ↔
      ∃ name ∈ names, switch = name ++ "_out" ∨ switch = name ++ "_opt" := by
  simp [List.flatMap_map, switches_pluginBinding]

theorem activation_ne_options (name other : String) : name ++ "_out" ≠ other ++ "_opt" := by
  intro same
  have chars := congrArg String.toList same
  rw [String.toList_append, String.toList_append] at chars
  exact out_ne_opt _ _ chars

theorem not_global (name : String) :
    name ++ "_out" ∉ globalSwitches ∧ name ++ "_opt" ∉ globalSwitches := by
  -- Both endings end in a letter that no global switch ends in.
  have ends : ∀ switch ∈ globalSwitches, switch.toList.getLast? ≠ some 't' := by
    simp [globalSwitches]
  constructor <;> exact fun global => ends _ global (by simp)

/-- Plugins of different names share no switch. -/
theorem not_mem_discovered {names : List String} {name : String} (fresh : name ∉ names) :
    ∀ switch ∈ [name ++ "_out", name ++ "_opt"],
      switch ∉ (names.map (pluginBinding pluginPrefix plugin)).flatMap (·.switches) := by
  intro switch mine theirs
  obtain ⟨other, member, shape⟩ := (mem_discovered_iff _ _).mp theirs
  have same : name = other := by
    simp only [List.mem_cons, List.not_mem_nil, or_false] at mine
    rcases mine with rfl | rfl <;> rcases shape with shape | shape
    · simpa using shape
    · exact absurd shape (activation_ne_options _ _)
    · exact absurd shape.symm (activation_ne_options _ _)
    · simpa using shape
  exact fresh (same ▸ member)

theorem switchesApart_discovered {names : List String} (distinct : names.Nodup) :
    SwitchesApart (names.map (pluginBinding pluginPrefix plugin)) := by
  constructor
  · induction names with
    | nil => exact List.Pairwise.nil
    | cons name names ih =>
      obtain ⟨fresh, distinct⟩ := List.nodup_cons.mp distinct
      rw [List.map_cons, List.flatMap_cons, switches_pluginBinding, List.nodup_append]
      refine ⟨by simp, ih distinct, ?_⟩
      rintro switch mine other theirs rfl
      exact not_mem_discovered _ _ fresh switch mine theirs
  · intro switch member
    obtain ⟨name, -, rfl | rfl⟩ := (mem_discovered_iff _ _).mp member
    · exact (not_global name).1
    · exact (not_global name).2

/-- No registered generator has one of the plugin's switches. -/
def FreeFor (r : Registry γ) (name : String) : Prop :=
  name ++ "_out" ∉ r.switches ∧ name ++ "_opt" ∉ r.switches

instance (r : Registry γ) (name : String) : Decidable (r.FreeFor name) :=
  inferInstanceAs (Decidable (_ ∧ _))

variable {r : Registry γ}

/-- Whether a plugin gives way is decided by the registered generators alone. -/
theorem taken_iff_not_freeFor {names : List String} {name : String} (fresh : name ∉ names) :
    (pluginBinding pluginPrefix plugin name).switches.any
        ((r.bindings ++ names.map (pluginBinding pluginPrefix plugin)).flatMap
          (·.switches)).contains = true ↔ ¬r.FreeFor name := by
  have unclaimed := not_mem_discovered pluginPrefix plugin fresh
  have claimed : ∀ switch ∈ [name ++ "_out", name ++ "_opt"],
      (switch ∈ (r.bindings ++ names.map (pluginBinding pluginPrefix plugin)).flatMap
        (·.switches) ↔ switch ∈ r.switches) := by
    intro switch mine
    rw [List.flatMap_append, List.mem_append]
    exact or_iff_left (unclaimed switch mine)
  rw [switches_pluginBinding, List.any_eq_true, FreeFor, ← not_or, not_not]
  simp only [List.contains_iff_mem, List.mem_cons, List.not_mem_nil, or_false, exists_eq_or_imp,
    exists_eq_left]
  rw [claimed _ (by simp), claimed _ (by simp)]

variable {pluginPrefix plugin}

theorem bindingsFor_of_forbidden (forbidden : r.pluginPrefix = none) (args : List String) :
    r.bindingsFor plugin args = r.bindings := by
  rw [bindingsFor, forbidden]

/-- Plugins only give way to registered generators, never to one another. -/
theorem bindingsFor_of_allowed (allowed : r.pluginPrefix = some pluginPrefix) (args : List String) :
    r.bindingsFor plugin args = r.bindings ++
      ((pluginNames args).filter r.FreeFor).map (pluginBinding pluginPrefix plugin) := by
  have distinct := (firstNamed_pluginNames args).nodup
  rw [bindingsFor, allowed]
  simp only
  revert distinct
  -- A name is compared with the switches of earlier plugins as well; as the names differ, these are
  -- never in the way.
  induction pluginNames args using List.reverseRecOn with
  | nil =>
    intro _
    exact (List.append_nil _).symm
  | append_singleton names name ih =>
    intro distinct
    obtain ⟨distinct, -, apart⟩ := List.nodup_append.mp distinct
    have fresh : name ∉ names.filter r.FreeFor := fun member =>
      apart name (List.mem_filter.mp member).1 name List.mem_cons_self rfl
    rw [List.foldl_append, ih distinct, List.filter_append, List.map_append, ← List.append_assoc,
      List.foldl_cons, List.foldl_nil]
    by_cases free : r.FreeFor name
    · have kept : [name].filter r.FreeFor = [name] := by simp [free]
      rw [kept, if_neg fun taken => (taken_iff_not_freeFor _ _ fresh).mp taken free]
      rfl
    · have dropped : [name].filter r.FreeFor = [] := by simp [free]
      rw [dropped, if_pos ((taken_iff_not_freeFor _ _ fresh).mpr free), List.map_nil,
        List.append_nil]

/-! ## The bindings for a command line -/

/-- The plugins that the arguments name and to which no registered generator is in the way, in the
order in which arguments in front of a bare `--` first name them. -/
structure Discovers (r : Registry γ) (args names : List String) : Prop where
  mem : ∀ name, name ∈ names ↔
    (∃ arg ∈ args.takeWhile (· ≠ "--"), NamesPlugin arg name) ∧ r.FreeFor name
  order : names.Pairwise (NamedBefore (args.takeWhile (· ≠ "--")))

theorem discovers_filter (r : Registry γ) (args : List String) :
    r.Discovers args ((pluginNames args).filter r.FreeFor) := by
  have named := firstNamed_pluginNames args
  refine ⟨fun name => ?_, named.order.sublist List.filter_sublist⟩
  rw [List.mem_filter, named.mem, decide_eq_true_eq]

theorem switchesApart_bindingsFor (apart : SwitchesApart r.bindings) (args : List String) :
    SwitchesApart (r.bindingsFor plugin args) := by
  cases allowed : r.pluginPrefix with
  | none =>
    rw [bindingsFor_of_forbidden allowed]
    exact apart
  | some pluginPrefix =>
    have distinct := (firstNamed_pluginNames args).nodup.sublist
      (List.filter_sublist (p := fun name => decide (r.FreeFor name)))
    rw [bindingsFor_of_allowed allowed]
    refine switchesApart_append_iff.mpr ⟨apart, switchesApart_discovered _ _ distinct, ?_⟩
    intro switch member
    obtain ⟨name, kept, shape⟩ := (mem_discovered_iff _ _).mp member
    have free : r.FreeFor name := of_decide_eq_true (List.mem_filter.mp kept).2
    rcases shape with rfl | rfl
    · exact free.1
    · exact free.2

/-- After any calls all switches differ, those of the plugins of any command line included, and none
is global. A registration is refused, and changes nothing, exactly when that would end. The
registered generators come first, in the order of their registration, then the plugins that the
command line discovers, if plugins are allowed. -/
theorem bindings_apart_and_in_order (calls : List (RegistryCall γ))
    (plugin : String → String → γ) (args : List String) :
    SwitchesApart ((after calls).bindingsFor plugin args) ∧
      (∀ generator activationSwitch optionsSwitch help,
        (SwitchesApart ((after calls).bindings ++
            [.registered generator activationSwitch optionsSwitch help]) →
          (after calls).register generator activationSwitch optionsSwitch help =
            .ok ((after calls).withBinding
              (.registered generator activationSwitch optionsSwitch help)) ∧
          after (calls ++ [.register generator activationSwitch optionsSwitch help]) =
            (after calls).withBinding
              (.registered generator activationSwitch optionsSwitch help)) ∧
        (¬SwitchesApart ((after calls).bindings ++
            [.registered generator activationSwitch optionsSwitch help]) →
          (∃ switch ∈ activationSwitch :: optionsSwitch.toList,
            (after calls).register generator activationSwitch optionsSwitch help =
              .error (.duplicateSwitch switch)) ∧
          after (calls ++ [.register generator activationSwitch optionsSwitch help]) =
            after calls)) ∧
      (after calls).bindings.Sublist (calls.filterMap RegistryCall.binding?) ∧
      (∀ binding ∈ (after calls).bindings, binding.discovered = false) ∧
      match (calls.filterMap RegistryCall.pluginPrefix?).getLast? with
      | none => (after calls).bindingsFor plugin args = (after calls).bindings
      | some pluginPrefix => ∃ names, (after calls).Discovers args names ∧
          (after calls).bindingsFor plugin args =
            (after calls).bindings ++ names.map (pluginBinding pluginPrefix plugin) := by
  have kept := kept_after calls
  refine ⟨switchesApart_bindingsFor kept.apart args, fun generator activation options help =>
    ⟨fun apart => ⟨register_of_apart apart, ?_⟩,
      fun clash => ⟨register_of_not_apart kept.apart clash, ?_⟩⟩, kept.ordered,
    not_discovered_after calls, ?_⟩
  · rw [after_concat, next_register kept.apart, if_pos apart]
  · rw [after_concat, next_register kept.apart, if_neg clash]
  · rw [← kept.allowed]
    split
    · next forbidden => exact bindingsFor_of_forbidden forbidden args
    · next pluginPrefix allowed =>
      exact ⟨_, discovers_filter _ args, bindingsFor_of_allowed allowed args⟩

/-- Two generators, of which one has the options switch of a plugin, and a refused registration. -/
def sampleCalls : List (RegistryCall Unit) :=
  [.register () "doc_out" (some "doc_opt") "documents", .allowPlugins "gen-",
    .register () "x_out" (some "jobs") "", .register () "b_opt" none ""]

theorem sampleCalls_apart :
    SwitchesApart ((after sampleCalls).bindings ++ [.registered () "go_out" none ""]) ∧
      ¬SwitchesApart ((after sampleCalls).bindings ++ [.registered () "a_out" (some "b_opt") ""]) ∧
      (∃ binding, (after sampleCalls).bindings.head? = some binding ∧ binding.discovered = false) ∧
      (after sampleCalls).register () "go_out" none "" =
        .ok ((after sampleCalls).withBinding (.registered () "go_out" none "")) ∧
      after (sampleCalls ++ [.register () "a_out" (some "b_opt") ""]) = after sampleCalls ∧
      ∃ names, (after sampleCalls).Discovers
        ["--go_out=d", "--b_out", "--doc_opt", "--", "--c_out"] names := by
  have free : SwitchesApart
      ((after sampleCalls).bindings ++ [.registered () "go_out" none ""]) := by
    decide +kernel
  have clash : ¬SwitchesApart
      ((after sampleCalls).bindings ++ [.registered () "a_out" (some "b_opt") ""]) := by
    decide +kernel
  obtain ⟨-, registers, -, registered, discovered⟩ := bindings_apart_and_in_order sampleCalls
    (fun _ _ => ()) ["--go_out=d", "--b_out", "--doc_opt", "--", "--c_out"]
  obtain ⟨names, discovers, -⟩ := discovered
  obtain ⟨first, given⟩ : ∃ binding, (after sampleCalls).bindings.head? = some binding := ⟨_, rfl⟩
  exact ⟨free, clash, ⟨first, given, registered first (List.mem_of_mem_head? given)⟩,
    ((registers () "go_out" none "").1 free).1,
    ((registers () "a_out" (some "b_opt") "").2 clash).2, names, discovers⟩

end SchemaCompiler.Registry
