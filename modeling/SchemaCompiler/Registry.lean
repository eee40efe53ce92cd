import SchemaCompiler.Generator
import SchemaCompiler.Json.Reader

/-!
The registry: which generators there are and which switches of the command line they listen to.

A generator has an activation switch, which gives its output directory, and may have an options
switch. All switch names are distinct. Once plugins are allowed, switches of unknown generators on a
command line bind plugins of those names.
-/

namespace SchemaCompiler

/-- Why generators and switches do not go together. -/
inductive RegistryError where
  | duplicateSwitch (switch : String)
  | danglingOptions (optionsSwitch activationSwitch : String)
  | invalidOptions (switch reason : String)
deriving DecidableEq, Repr

def RegistryError.message : RegistryError → String
  | duplicateSwitch switch => "Switch '--" ++ switch ++ "' is already bound to a generator"
  | danglingOptions optionsSwitch activationSwitch =>
    "'--" ++ optionsSwitch ++ "' was given without '--" ++ activationSwitch ++
      "'; options need an activated generator"
  | invalidOptions switch reason => "Invalid value for '--" ++ switch ++ "': " ++ reason

/-- A generator and its switches. -/
structure Binding (γ : Type) where
  generator : γ
  name : String
  activationSwitch : String
  optionsSwitch : Option String
  help : String
  /-- Whether the generator is a plugin that a command line named. -/
  discovered : Bool

/-- A generator as set up by one command line. -/
structure Entry (γ : Type) where
  generator : γ
  name : String
  /-- Empty unless the generator is activated. -/
  directory : Path
  options : Options
  activated : Bool

/-- The switches that are no generator's. -/
def globalSwitches : List String := ["import_path", "verbose", "jobs", "files", "help", "version"]

namespace Binding

variable {γ : Type}

def switches (b : Binding γ) : List String := b.activationSwitch :: b.optionsSwitch.toList

end Binding

/-- Generators in the order of their registration. -/
structure Registry (γ : Type) where
  bindings : List (Binding γ)
  /-- What the names of plugin executables begin with, once plugins are allowed. -/
  pluginPrefix : Option String

namespace Registry

variable {γ : Type}

def empty : Registry γ := ⟨[], none⟩

def switches (r : Registry γ) : List String := r.bindings.flatMap (·.switches)

def names (r : Registry γ) : List String := r.bindings.map (·.name)

/-- What stands in front of an ending. -/
def dropEnding? (ending cs : List Char) : Option (List Char) :=
  let front := cs.take (cs.length - ending.length)
  if front ++ ending = cs then some front else none

/-- An activation switch without the ending that most have. -/
def generatorName (activationSwitch : String) : String :=
  match dropEnding? "_out".toList activationSwitch.toList with
  | some name => String.ofList name
  | none => activationSwitch

/-- Adds a generator whose switches are all new. -/
def register (r : Registry γ) (generator : γ) (activationSwitch : String)
    (optionsSwitch : Option String) (help : String) : Except RegistryError (Registry γ) :=
  if optionsSwitch = some activationSwitch then .error (.duplicateSwitch activationSwitch)
  else
    let taken := globalSwitches ++ r.switches
    match (activationSwitch :: optionsSwitch.toList).find? taken.contains with
    | some switch => .error (.duplicateSwitch switch)
    | none =>
      let binding : Binding γ :=
        { generator, name := generatorName activationSwitch, activationSwitch, optionsSwitch, help,
          discovered := false }
      .ok { r with bindings := r.bindings ++ [binding] }

def allowPlugins (r : Registry γ) (pluginPrefix : String) : Registry γ :=
  { r with pluginPrefix := some pluginPrefix }

/-! ## Plugins on the command line -/

def isPluginNameChar (c : Char) : Bool := c.isAlphanum || c == '_' || c == '-'

def isPluginName (name : List Char) : Bool := !name.isEmpty && name.all isPluginNameChar

/-- The name in `--name_out` or `--name_opt`, with or without a value. -/
def pluginNameOf? (arg : List Char) : Option String :=
  match arg with
  | '-' :: '-' :: rest =>
    let switch := rest.takeWhile (· ≠ '=')
    let name := dropEnding? "_out".toList switch <|> dropEnding? "_opt".toList switch
    (name.filter isPluginName).map String.ofList
  | _ => none

/-- The plugins named in front of a bare `--`, in the order in which they first occur. -/
def pluginNames (args : List String) : List String :=
  (((args.takeWhile (· ≠ "--")).filterMap fun arg => pluginNameOf? arg.toList).foldl
    (fun names name => if names.contains name then names else name :: names) []).reverse

def pluginBinding (pluginPrefix : String) (plugin : String → String → γ) (name : String) :
    Binding γ :=
  { generator := plugin pluginPrefix name
    name
    activationSwitch := name ++ "_out"
    optionsSwitch := some (name ++ "_opt")
    help := "Generate output with the " ++ pluginPrefix ++ name ++ " plugin"
    discovered := true }

/-- The bindings for one command line: registered generators first, then the plugins that it names,
except those of which a registered generator has a switch. -/
def bindingsFor (r : Registry γ) (plugin : String → String → γ) (args : List String) :
    List (Binding γ) :=
  match r.pluginPrefix with
  | none => r.bindings
  | some pluginPrefix =>
    (pluginNames args).foldl
      (fun bindings name =>
        let binding := pluginBinding pluginPrefix plugin name
        let taken := bindings.flatMap (·.switches)
        if binding.switches.any taken.contains then bindings else bindings ++ [binding])
      r.bindings

end Registry

/-! ## Entries -/

namespace Binding

variable {γ : Type}

/-- The options in the value of an options switch. -/
def readOptions (switch text : String) : Except RegistryError Options :=
  match Json.parse text with
  | .error reason => .error (.invalidOptions switch reason)
  | .ok value =>
    match value.sorted with
    | .object members => .ok members
    | other => .error (.invalidOptions switch ("expected a JSON object, got " ++ other.text))

/-- Sets a generator up, given the values of switches. -/
def entry (b : Binding γ) (value? : String → Option String) : Except RegistryError (Entry γ) := do
  let directory := value? b.activationSwitch
  let options ←
    match b.optionsSwitch.bind fun switch => (value? switch).map (switch, ·), directory with
    | some (switch, _), none => throw (.danglingOptions switch b.activationSwitch)
    | some (switch, text), some _ => readOptions switch text
    | none, _ => pure []
  return { generator := b.generator, name := b.name, directory := ⟨directory.getD ""⟩, options,
           activated := directory.isSome }

/-- Sets all generators up, in order. -/
def entries (bindings : List (Binding γ)) (value? : String → Option String) :
    Except RegistryError (List (Entry γ)) :=
  bindings.mapM (·.entry value?)

/-! ## Help -/

/-- A switch as the help shows it. -/
structure SwitchHelp where
  switch : String
  valueName : String
  help : String
  heading : String
deriving DecidableEq, Repr

def switchHelps (b : Binding γ) : List SwitchHelp :=
  let heading := "Generator Flags"
  ⟨b.activationSwitch, "OUT_DIR", b.help, heading⟩ ::
    b.optionsSwitch.toList.map fun switch =>
      ⟨switch, "JSON", "Options for the " ++ b.name ++ " generator (JSON object)", heading⟩

end Binding

end SchemaCompiler
