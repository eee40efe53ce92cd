import SchemaCompiler.Compiler
import SchemaCompiler.Proofs.Registry.Discovery

/-!
The order of items on a command line.

A command line of settings for bound switches and of files is read item by item, and only the last
value of each switch is kept. So the generators are set up alike whatever the order of the items, if
the items for each switch keep theirs. They are set up in the order of their registration, which is
also how the error to report is found.
-/

namespace SchemaCompiler

/-! ## Generators and the values of their switches -/

namespace Binding

variable {γ : Type}

/-- The text is an object with these members. -/
def OptionsIn (text : String) (members : Options) : Prop :=
  ∃ value, Json.parse text = .ok value ∧ value.sorted = .object members

/-- The text is no object, for this reason. -/
inductive NoOptions (text : String) : String → Prop where
  | unreadable {reason : String} (stops : Json.parse text = .error reason) : NoOptions text reason
  | other {value : Json} (reads : Json.parse text = .ok value)
      (other : ∀ members, value.sorted ≠ .object members) :
      NoOptions text ("expected a JSON object, got " ++ value.sorted.text)

theorem NoOptions.not_optionsIn {text reason : String} (h : NoOptions text reason)
    (members : Options) : ¬OptionsIn text members := by
  rintro ⟨value, reads, object⟩
  cases h with
  | unreadable stops => cases stops.symm.trans reads
  | other reads' other =>
    cases reads'.symm.trans reads
    exact other members object

theorem readOptions_spec (switch text : String) :
    (∃ members, readOptions switch text = .ok members ∧ OptionsIn text members) ∨
      ∃ reason, readOptions switch text = .error (.invalidOptions switch reason) ∧
        NoOptions text reason := by
  unfold readOptions
  split
  · next reason stops => exact .inr ⟨reason, rfl, .unreadable stops⟩
  · next value reads =>
    split
    · next members object => exact .inl ⟨members, rfl, value, reads, object⟩
    · next other => exact .inr ⟨_, rfl, .other reads other⟩

/-- The generator is set up by these values of its switches. -/
structure SetUp (b : Binding γ) (last : String → Option String) (e : Entry γ) : Prop where
  generator : e.generator = b.generator
  name : e.name = b.name
  activated : e.activated = (last b.activationSwitch).isSome
  directory : e.directory = ⟨(last b.activationSwitch).getD ""⟩
  bare : b.optionsSwitch.bind last = none → e.options = []
  options : ∀ text, b.optionsSwitch.bind last = some text →
    e.activated = true ∧ OptionsIn text e.options

/-- Why a generator is not set up by these values. -/
inductive Fault (b : Binding γ) (last : String → Option String) : RegistryError → Prop where
  | dangling {switch text : String} (options : b.optionsSwitch = some switch)
      (given : last switch = some text) (inactive : last b.activationSwitch = none) :
      Fault b last (.danglingOptions switch b.activationSwitch)
  | invalid {switch text reason directory : String} (options : b.optionsSwitch = some switch)
      (given : last switch = some text) (active : last b.activationSwitch = some directory)
      (no : NoOptions text reason) : Fault b last (.invalidOptions switch reason)

variable {b : Binding γ} {last : String → Option String}

theorem SetUp.not_fault {e : Entry γ} (h : b.SetUp last e) (error : RegistryError) :
    ¬b.Fault last error := by
  intro fault
  cases fault with
  | dangling options given inactive =>
    have active := (h.options _ (by rw [options]; exact given)).1
    rw [h.activated, inactive] at active
    cases active
  | invalid options given active no =>
    exact no.not_optionsIn _ (h.options _ (by rw [options]; exact given)).2

/-- Without options. -/
theorem entry_bare (bare : b.optionsSwitch.bind last = none) :
    ∃ e, b.entry last = .ok e ∧ b.SetUp last e := by
  have none : (b.optionsSwitch.bind fun switch => (last switch).map (switch, ·)) = none := by
    cases options : b.optionsSwitch with
    | none => rfl
    | some switch =>
      rw [options] at bare
      simpa using bare
  refine ⟨⟨b.generator, b.name, ⟨(last b.activationSwitch).getD ""⟩, [],
    (last b.activationSwitch).isSome⟩, ?_, ⟨rfl, rfl, rfl, rfl, fun _ => rfl, ?_⟩⟩
  · unfold entry
    rw [none]
    rfl
  · intro text given
    cases bare.symm.trans given

theorem entry_spec (b : Binding γ) (last : String → Option String) :
    (∃ e, b.entry last = .ok e ∧ b.SetUp last e) ∨
      ∃ error, b.entry last = .error error ∧ b.Fault last error := by
  cases options : b.optionsSwitch with
  | none => exact .inl (entry_bare (by rw [options]; rfl))
  | some switch =>
    cases given : last switch with
    | none => exact .inl (entry_bare (by rw [options]; exact given))
    | some text =>
      have both : (b.optionsSwitch.bind fun switch => (last switch).map (switch, ·)) =
          some (switch, text) := by
        rw [options, Option.bind_some, given, Option.map_some]
      unfold entry
      rw [both]
      cases active : last b.activationSwitch with
      | none => exact .inr ⟨_, rfl, .dangling options given active⟩
      | some directory =>
        rcases readOptions_spec switch text with ⟨members, reads, object⟩ | ⟨reason, stops, no⟩
        · have value : b.optionsSwitch.bind last = some text := by
            rw [options]
            exact given
          have good : b.SetUp last ⟨b.generator, b.name, ⟨directory⟩, members, true⟩ := by
            refine ⟨rfl, rfl, by rw [active]; rfl, by rw [active]; rfl, fun none => ?_,
              fun other same => ?_⟩
            · cases none.symm.trans value
            · cases same.symm.trans value
              exact ⟨rfl, object⟩
          simp only [reads]
          exact .inl ⟨_, rfl, good⟩
        · simp only [stops]
          exact .inr ⟨_, rfl, .invalid options given active no⟩

/-- The generators are set up in the order of their bindings, up to the first fault. -/
theorem entries_spec (bindings : List (Binding γ)) (last : String → Option String) :
    match entries bindings last with
    | .ok set => List.Forall₂ (fun b e => b.SetUp last e) bindings set
    | .error error => ∃ front b back, bindings = front ++ b :: back ∧
        (∀ earlier ∈ front, ∀ other, ¬earlier.Fault last other) ∧ b.Fault last error := by
  unfold entries
  induction bindings with
  | nil => exact .nil
  | cons b bindings ih =>
    rw [List.mapM_cons]
    rcases b.entry_spec last with ⟨e, made, good⟩ | ⟨error, made, fault⟩
    · rw [made]
      cases rest : bindings.mapM (·.entry last) with
      | ok set =>
        rw [rest] at ih
        exact .cons good ih
      | error error =>
        rw [rest] at ih
        obtain ⟨front, faulty, back, rfl, sound, fault⟩ := ih
        exact ⟨b :: front, faulty, back, rfl, List.forall_mem_cons.mpr ⟨good.not_fault, sound⟩,
          fault⟩
    · rw [made]
      exact ⟨[], b, bindings, rfl, List.forall_mem_nil _, fault⟩

end Binding

/-! ## Items -/

namespace CommandLine

/-- An argument that gives a switch its value, or a file. -/
inductive Item where
  | setting (switch value : String)
  | file (name : String)
deriving DecidableEq

namespace Item

def text : Item → String
  | setting switch value => "--" ++ switch ++ "=" ++ value
  | file name => name

def isFile : Item → Bool
  | setting .. => false
  | file _ => true

/-- The value that the item gives the switch. -/
def valueOf? (switch : String) : Item → Option String
  | setting other value => if other = switch then some value else none
  | file _ => none

/-- An item for one of the switches, or a file that is not read as a switch. -/
def Plain (switches : List String) : Item → Prop
  | setting switch _ => switch ∈ switches
  | file name => name = "-" ∨ name.toList.head? ≠ some '-'

instance (switches : List String) : DecidablePred (Plain switches)
  | setting _ _ => inferInstanceAs (Decidable (_ ∈ _))
  | file _ => inferInstanceAs (Decidable (_ ∨ _))

/-- What a command line says once the item is read. -/
def addTo (line : CommandLine) : Item → CommandLine
  | setting switch value => { line with values := (switch, value) :: line.values }
  | file name => { line with files := line.files ++ [name] }

end Item

/-- The last value that the items give the switch. -/
def lastValue (items : List Item) (switch : String) : Option String :=
  (items.filterMap (Item.valueOf? switch)).getLast?

theorem Item.valueOf?_eq_some_iff {switch value : String} {item : Item} :
    item.valueOf? switch = some value ↔ item = .setting switch value := by
  cases item with
  | setting other given =>
    rw [valueOf?, Item.setting.injEq]
    split <;> simp_all
  | file name => exact iff_of_false nofun nofun

theorem lastValue_eq_some_iff {items : List Item} {switch value : String} :
    lastValue items switch = some value ↔ ∃ front back,
      items = front ++ .setting switch value :: back ∧ ∀ other, .setting switch other ∉ back := by
  have silent {item : Item} :
      item.valueOf? switch = none ↔ ∀ other, item ≠ .setting switch other := by
    simp only [Option.eq_none_iff_forall_ne_some, ne_eq, Item.valueOf?_eq_some_iff]
  rw [lastValue, List.getLast?_eq_some_iff]
  constructor
  · rintro ⟨values, split⟩
    obtain ⟨front, rest, rfl, -, last⟩ := List.filterMap_eq_append_iff.mp split
    obtain ⟨middle, item, back, rfl, -, gives, none⟩ := List.filterMap_eq_cons_iff.mp last
    obtain rfl := Item.valueOf?_eq_some_iff.mp gives
    refine ⟨front ++ middle, back, by rw [List.append_assoc], fun other member => ?_⟩
    exact silent.mp (List.filterMap_eq_nil_iff.mp none _ member) other rfl
  · rintro ⟨front, back, rfl, none⟩
    have rest : back.filterMap (Item.valueOf? switch) = [] :=
      List.filterMap_eq_nil_iff.mpr fun item member =>
        silent.mpr fun other same => none other (same ▸ member)
    refine ⟨front.filterMap (Item.valueOf? switch), ?_⟩
    rw [List.filterMap_append, List.filterMap_cons_some (Item.valueOf?_eq_some_iff.mpr rfl), rest]

theorem value?_addTo (line : CommandLine) (item : Item) (switch : String) :
    (item.addTo line).value? switch = (item.valueOf? switch).or (line.value? switch) := by
  cases item with
  | setting other value =>
    rw [Item.addTo, Item.valueOf?, value?, List.lookup_cons]
    by_cases same : other = switch
    · simp [same]
    · rw [beq_false_of_ne fun eq => same eq.symm, if_neg same]
      rfl
  | file name => rfl

theorem value?_foldl_addTo (line : CommandLine) (items : List Item) (switch : String) :
    (items.foldl Item.addTo line).value? switch =
      (lastValue items switch).or (line.value? switch) := by
  -- The last item counts first, so the induction is from the back.
  induction items using List.reverseRecOn with
  | nil => rfl
  | append_singleton items item ih =>
    rw [List.foldl_append, List.foldl_cons, List.foldl_nil, value?_addTo, ih, lastValue, lastValue,
      List.filterMap_append, List.getLast?_append, ← Option.or_assoc]
    congr 1
    cases given : item.valueOf? switch <;> simp [given]

theorem files_foldl_addTo (line : CommandLine) (items : List Item) :
    (items.foldl Item.addTo line).files.isEmpty =
      (line.files.isEmpty && !items.any Item.isFile) := by
  induction items generalizing line with
  | nil => simp
  | cons item items ih =>
    rw [List.foldl_cons, ih]
    cases item <;> simp [Item.addTo, Item.isFile]

/-! ## Reading the items -/

/-- No switch has an equals sign, and none is a global one. -/
structure PlainSwitches (switches : List String) : Prop where
  unmarked : ∀ switch ∈ switches, '=' ∉ switch.toList
  own : ∀ switch ∈ switches, switch ∉ globalSwitches

variable {switches : List String}

theorem long?_eq (plain : PlainSwitches switches) {switch : String} (bound : switch ∈ switches) :
    long? switches switch = some (.inr (.generator switch)) := by
  have own := plain.own switch bound
  simp only [globalSwitches, List.mem_cons, List.not_mem_nil, or_false, not_or] at own
  obtain ⟨importPath, verbose, jobs, -, help, version⟩ := own
  unfold long?
  split
  · exact absurd rfl importPath
  · exact absurd rfl verbose
  · exact absurd rfl jobs
  · exact absurd rfl help
  · exact absurd rfl version
  · rw [if_pos (List.contains_iff_mem.mpr bound)]

theorem meetLong_setting (plain : PlainSwitches switches) (line : CommandLine)
    {switch : String} (bound : switch ∈ switches) (value : String) :
    Reading.meetLong switches ⟨line, none, false⟩ (switch.toList ++ '=' :: value.toList) =
      .ok ⟨{ line with values := (switch, value) :: line.values }, none, false⟩ := by
  have front : (switch.toList ++ '=' :: value.toList).takeWhile (· ≠ '=') = switch.toList :=
    Text.takeWhile_ne_eq_iff.mpr ⟨plain.unmarked switch bound, .inr ⟨_, rfl⟩⟩
  have back : (switch.toList ++ '=' :: value.toList).dropWhile (· ≠ '=') = '=' :: value.toList := by
    have whole := List.takeWhile_append_dropWhile (p := (· ≠ '='))
      (l := switch.toList ++ '=' :: value.toList)
    rw [front] at whole
    exact List.append_cancel_left whole
  unfold Reading.meetLong
  rw [front, back, String.ofList_toList, long?_eq plain bound]
  simp only [String.ofList_toList]
  rfl

theorem meet_item (plain : PlainSwitches switches) (line : CommandLine) {item : Item}
    (good : item.Plain switches) :
    Reading.meet switches ⟨line, none, false⟩ item.text = .ok ⟨item.addTo line, none, false⟩ := by
  cases item with
  | setting switch value =>
    have shape : (Item.setting switch value).text.toList =
        '-' :: '-' :: (switch.toList ++ '=' :: value.toList) := by simp [Item.text]
    -- There is an equals sign behind the dashes, so this is no bare pair of dashes.
    have some : switch.toList ++ '=' :: value.toList ≠ [] := by simp
    have read := meetLong_setting plain line good value
    obtain ⟨c, rest, split⟩ := List.exists_cons_of_ne_nil some
    rw [split] at shape read
    rw [Reading.meet, shape]
    exact read
  | file name =>
    rcases good with rfl | undashed
    · rfl
    · have shown : (Item.file name).text = name := rfl
      have dash (rest : List Char) (shape : name.toList = '-' :: rest) : False :=
        undashed (by rw [shape]; rfl)
      rw [shown, Reading.meet, if_neg Bool.false_ne_true]
      split
      · next shape => exact (dash _ shape).elim
      · next shape => exact (dash _ shape).elim
      · next shape => exact (dash _ shape).elim
      · next shape => exact (dash _ shape).elim
      · rfl

theorem foldlM_meet (plain : PlainSwitches switches) (line : CommandLine) {items : List Item}
    (good : ∀ item ∈ items, item.Plain switches) :
    (items.map Item.text).foldlM (Reading.meet switches) ⟨line, none, false⟩ =
      .ok ⟨items.foldl Item.addTo line, none, false⟩ := by
  induction items generalizing line with
  | nil => rfl
  | cons item items ih =>
    obtain ⟨first, later⟩ := List.forall_mem_cons.mp good
    rw [List.map_cons, List.foldlM_cons, meet_item plain line first]
    exact ih _ later

theorem parse_of_read {args : List String} {line : CommandLine}
    (read : args.foldlM (Reading.meet switches) Reading.start = .ok ⟨line, none, false⟩) :
    parse switches args =
      if line.files.isEmpty then .error .missingRequiredArgument
      else
        .ok (if line.importPaths.isEmpty then { line with importPaths := [⟨"."⟩] } else line) := by
  unfold parse
  rw [read]
  by_cases empty : line.files.isEmpty = true
  · rw [if_pos empty]
    exact if_pos empty
  · rw [if_neg empty]
    exact if_neg empty

/-- Items with a file are read, and each switch has its last value. -/
theorem parse_items (plain : PlainSwitches switches) {items : List Item}
    (good : ∀ item ∈ items, item.Plain switches) :
    if items.any Item.isFile then
      ∃ line, parse switches (items.map Item.text) = .ok line ∧ line.value? = lastValue items
    else parse switches (items.map Item.text) = .error .missingRequiredArgument := by
  have read := foldlM_meet plain Reading.start.line good
  have last : (items.foldl Item.addTo Reading.start.line).value? = lastValue items := by
    funext switch
    rw [value?_foldl_addTo]
    exact Option.or_none
  rw [parse_of_read read, files_foldl_addTo]
  cases items.any Item.isFile with
  | true =>
    refine ⟨_, rfl, ?_⟩
    split
    · exact last
    · exact last
  | false => rfl

end CommandLine

/-! ## Command lines -/

namespace Registry

variable {γ : Type}

/-- No argument names a plugin that a binding would be made for. -/
def NothingToDiscover (r : Registry γ) (args : List String) : Prop :=
  r.pluginPrefix ≠ none → ∀ arg ∈ args, ∀ name, NamesPlugin arg name → ¬r.FreeFor name

theorem bindingsFor_of_nothing {r : Registry γ} {args : List String}
    (nothing : r.NothingToDiscover args) (plugin : String → String → γ) :
    r.bindingsFor plugin args = r.bindings := by
  cases allowed : r.pluginPrefix with
  | none => exact bindingsFor_of_forbidden allowed args
  | some pluginPrefix =>
    have none : (pluginNames args).filter r.FreeFor = [] := by
      refine List.eq_nil_iff_forall_not_mem.mpr fun name member => ?_
      obtain ⟨⟨arg, early, named⟩, free⟩ := ((discovers_filter r args).mem name).mp member
      exact nothing (by simp [allowed]) arg ((List.takeWhile_prefix _).subset early) name named free
    rw [bindingsFor_of_allowed allowed, none]
    exact List.append_nil _

end Registry

namespace Compiler

open CommandLine Binding

/-- The generators as a command line sets them up. -/
def setUp (c : Compiler) (args : List String) : Except CompileError (List (Entry Generator)) :=
  (c.configure args).map Prod.snd

variable {c : Compiler} {program : String} {items : List Item}

theorem configure_eq {args : List String}
    (nothing : c.registry.NothingToDiscover (program :: args)) :
    c.configure (program :: args) = (do
      let line ← (parse c.registry.switches args).mapError .usage
      let set ← (entries c.registry.bindings line.value?).mapError .registry
      return (line, set)) := by
  unfold configure
  rw [Registry.bindingsFor_of_nothing nothing]
  rfl

/-- Only the last values of the switches count, and whether there is a file. -/
theorem setUp_items (plain : PlainSwitches c.registry.switches)
    (good : ∀ item ∈ items, item.Plain c.registry.switches)
    (nothing : c.registry.NothingToDiscover (program :: items.map Item.text)) :
    c.setUp (program :: items.map Item.text) =
      if items.any Item.isFile then
        (entries c.registry.bindings (lastValue items)).mapError .registry
      else .error (.usage .missingRequiredArgument) := by
  have read := parse_items plain good
  rw [setUp, configure_eq nothing]
  cases some : items.any Item.isFile with
  | true =>
    rw [some, if_pos rfl] at read
    obtain ⟨line, reads, last⟩ := read
    rw [reads, if_pos rfl, ← last]
    change Except.map Prod.snd ((entries c.registry.bindings line.value?).mapError
      CompileError.registry >>= fun set => pure (line, set)) = _
    cases entries c.registry.bindings line.value? <;> rfl
  | false =>
    rw [some, if_neg Bool.false_ne_true] at read
    rw [read, if_neg Bool.false_ne_true]
    rfl

/-- Items for bound switches, in which no switch has an equals sign, and files set the generators up
alike in any order that keeps the values of each switch in theirs. Without a file nothing is set up.
Otherwise each registered generator has its entry, in the order of registration, from the last
values of its switches, or the first that has none is reported: its options are given while it is
not activated, or are no object. -/
theorem setUp_rearranged {calls : List (RegistryCall Generator)}
    (made : c.registry = .after calls)
    (unmarked : ∀ switch ∈ c.registry.switches, '=' ∉ switch.toList)
    (good : ∀ item ∈ items, item.Plain c.registry.switches)
    (nothing : c.registry.NothingToDiscover (program :: items.map Item.text))
    {others : List Item} (perm : items.Perm others)
    (kept : ∀ switch, items.filterMap (Item.valueOf? switch) =
      others.filterMap (Item.valueOf? switch)) :
    c.setUp (program :: others.map Item.text) = c.setUp (program :: items.map Item.text) ∧
      (∀ switch value, lastValue items switch = some value ↔ ∃ front back,
        items = front ++ .setting switch value :: back ∧
          ∀ other, .setting switch other ∉ back) ∧
      (items.any Item.isFile = false →
        c.setUp (program :: items.map Item.text) = .error (.usage .missingRequiredArgument)) ∧
      (items.any Item.isFile = true →
        (∃ set, c.setUp (program :: items.map Item.text) = .ok set ∧
          List.Forall₂ (fun b e => b.SetUp (lastValue items) e) c.registry.bindings set) ∨
        ∃ front b back error, c.registry.bindings = front ++ b :: back ∧
          (∀ earlier ∈ front, ∀ other, ¬earlier.Fault (lastValue items) other) ∧
          b.Fault (lastValue items) error ∧
          c.setUp (program :: items.map Item.text) = .error (.registry error)) := by
  have plain : PlainSwitches c.registry.switches :=
    ⟨unmarked, by rw [made]; exact (Registry.kept_after calls).apart.2⟩
  have nothing' : c.registry.NothingToDiscover (program :: others.map Item.text) := by
    refine fun allowed arg member => nothing allowed arg ?_
    exact ((perm.map Item.text).cons program).mem_iff.mpr member
  have good' : ∀ item ∈ others, item.Plain c.registry.switches :=
    fun item member => good item (perm.mem_iff.mpr member)
  have files : others.any Item.isFile = items.any Item.isFile := by
    rw [Bool.eq_iff_iff, List.any_eq_true, List.any_eq_true]
    simp only [perm.mem_iff]
  have last : lastValue others = lastValue items := by
    funext switch
    rw [lastValue, lastValue, kept]
  have shown := setUp_items plain good nothing
  refine ⟨?_, fun _ _ => lastValue_eq_some_iff, fun none => ?_, fun some => ?_⟩
  · rw [shown, setUp_items plain good' nothing', files, last]
  · rw [shown, none]
    rfl
  · have spec := entries_spec c.registry.bindings (lastValue items)
    rw [some, if_pos rfl] at shown
    rw [shown]
    cases result : entries c.registry.bindings (lastValue items) with
    | ok set =>
      rw [result] at spec
      exact .inl ⟨set, rfl, spec⟩
    | error error =>
      rw [result] at spec
      obtain ⟨front, b, back, split, sound, fault⟩ := spec
      exact .inr ⟨front, b, back, error, split, sound, fault, rfl⟩

/-- Two generators with options, where plugins are allowed. -/
def pairCalls : List (RegistryCall Generator) :=
  [.register (fun _ => pure ()) "a_out" (some "a_opt") "",
    .register (fun _ => pure ()) "b_out" (some "b_opt") "", .allowPlugins "gen-"]

def pairCompiler : Compiler where
  registry := .after pairCalls
  plugin _ _ _ := pure ()
  logging := none

/-- The options of the second generator dangle, and the last ones of the first are no object. -/
def faultyItems : List Item :=
  [.setting "b_opt" "\x7b\x7d", .file "f.gql", .setting "a_opt" "\x7b\x7d", .file "-",
    .setting "a_opt" "7", .setting "a_out" "d"]

def rearrangedItems : List Item :=
  [.file "-", .setting "a_out" "d", .setting "a_opt" "\x7b\x7d", .setting "a_opt" "7",
    .setting "b_opt" "\x7b\x7d", .file "f.gql"]

/-- The fault of a generator's switches, which can be computed. -/
def registryError? {α : Type} : Except CompileError α → Option RegistryError
  | .error (.registry error) => some error
  | _ => none

theorem eq_error_of_registryError? {α : Type} {result : Except CompileError α}
    {error : RegistryError} (h : registryError? result = some error) :
    result = .error (.registry error) := by
  unfold registryError? at h
  split at h
  · rw [Option.some.inj h]
  · cases h

/-- The fault of the first generator is reported, wherever its items stand. -/
theorem first_fault_of_rearrangedItems :
    faultyItems.Perm rearrangedItems ∧
      pairCompiler.setUp ("sdlc" :: faultyItems.map Item.text) =
        .error (.registry (.invalidOptions "a_opt" "expected a JSON object, got 7")) ∧
      pairCompiler.setUp ("sdlc" :: rearrangedItems.map Item.text) =
        .error (.registry (.invalidOptions "a_opt" "expected a JSON object, got 7")) := by
  have unmarked : ∀ switch ∈ pairCompiler.registry.switches, '=' ∉ switch.toList := by
    decide +kernel
  have good : ∀ item ∈ faultyItems, item.Plain pairCompiler.registry.switches := by
    decide +kernel
  have nothing : pairCompiler.registry.NothingToDiscover
      ("sdlc" :: faultyItems.map Item.text) := by
    have named : ∀ arg ∈ "sdlc" :: faultyItems.map Item.text,
        ∀ name ∈ Registry.pluginNameOf? arg.toList, ¬pairCompiler.registry.FreeFor name := by
      decide +kernel
    exact fun _ arg member name names =>
      named arg member name (Registry.pluginNameOf?_eq_some_iff.mpr names)
  have perm : faultyItems.Perm rearrangedItems := by decide +kernel
  have kept (switch : String) : faultyItems.filterMap (Item.valueOf? switch) =
      rearrangedItems.filterMap (Item.valueOf? switch) := by
    by_cases given : switch ∈ ["a_opt", "a_out", "b_opt"]
    · revert switch
      decide +kernel
    · simp only [List.mem_cons, List.not_mem_nil, or_false, not_or] at given
      obtain ⟨options, activation, others⟩ := given
      simp [faultyItems, rearrangedItems, List.filterMap_cons, Item.valueOf?, Ne.symm options,
        Ne.symm activation, Ne.symm others]
  have fault : pairCompiler.setUp ("sdlc" :: faultyItems.map Item.text) =
      .error (.registry (.invalidOptions "a_opt" "expected a JSON object, got 7")) :=
    eq_error_of_registryError? (by decide +kernel)
  obtain ⟨same, -⟩ := setUp_rearranged (c := pairCompiler) rfl unmarked good nothing perm kept
  exact ⟨perm, fault, same.trans fault⟩

end Compiler

end SchemaCompiler
