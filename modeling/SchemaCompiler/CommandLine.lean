import SchemaCompiler.Path
import SchemaCompiler.Text.Lines

/-!
Command lines.

Switches begin with two dashes, or with one and are then a single letter, and may stand between the
input files. The value of a switch stands behind `=`, behind its letter, or in the next argument.
The last value of a switch counts, except that import paths add up. Behind a bare `--` there are
only files.
-/

namespace SchemaCompiler

/-- Why a command line is not understood, or that it asks for something else than a run. -/
inductive UsageError where
  | unknownArgument
  | missingRequiredArgument
  /-- A value is missing or empty. -/
  | invalidValue
  /-- A value is no number. -/
  | valueValidation
  /-- A value for a switch that takes none. -/
  | tooManyValues
  | displayHelp
  | displayVersion
deriving DecidableEq, Repr

namespace UsageError

def name : UsageError → String
  | unknownArgument => "UnknownArgument"
  | missingRequiredArgument => "MissingRequiredArgument"
  | invalidValue => "InvalidValue"
  | valueValidation => "ValueValidation"
  | tooManyValues => "TooManyValues"
  | displayHelp => "DisplayHelp"
  | displayVersion => "DisplayVersion"

end UsageError

/-- What a command line says. -/
structure CommandLine where
  /-- In the order given; empty if none is given. -/
  importPaths : List Path
  verbose : Bool
  jobs : Nat
  files : List String
  /-- The values of the generators' switches, the last one first. -/
  values : List (String × String)
deriving DecidableEq, Repr

namespace CommandLine

inductive Flag where
  | verbose
  | help
  | version
deriving DecidableEq, Repr

/-- A switch that takes a value. -/
inductive Setting where
  | importPath
  | jobs
  /-- A switch of a generator. -/
  | generator (switch : String)
deriving DecidableEq, Repr

abbrev Switch := Flag ⊕ Setting

/-- The switch of a name behind two dashes. -/
def long? (generatorSwitches : List String) (name : String) : Option Switch :=
  match name with
  | "import_path" => some (.inr .importPath)
  | "verbose" => some (.inl .verbose)
  | "jobs" => some (.inr .jobs)
  | "help" => some (.inl .help)
  | "version" => some (.inl .version)
  | _ => if generatorSwitches.contains name then some (.inr (.generator name)) else none

/-- The switch of a letter behind one dash. -/
def short? : Char → Option Switch
  | 'I' => some (.inr .importPath)
  | 'v' => some (.inl .verbose)
  | 'j' => some (.inr .jobs)
  | 'h' => some (.inl .help)
  | 'V' => some (.inl .version)
  | _ => none

/-! ## Values -/

/-- The largest number that can be given. -/
def maxNumber : Nat := 0xFFFFFFFFFFFFFFFF

/-- A number in decimal digits, perhaps behind a plus sign. -/
def number? (text : String) : Option Nat :=
  let digits := match text.toList with
    | '+' :: rest => rest
    | cs => cs
  if digits.isEmpty ∨ ¬ digits.all Char.isDigit then none
  else
    let n := digits.foldl (fun n c => n * 10 + (c.toNat - '0'.toNat)) 0
    if n ≤ maxNumber then some n else none

/-- Gives a setting its value. Import paths stand between commas, and none may be empty. -/
def set (line : CommandLine) (setting : Setting) (value : String) :
    Except UsageError CommandLine :=
  match setting with
  | .importPath =>
    let paths := Text.splitOnChar ',' value.toList
    if paths.contains [] then .error .invalidValue
    else
      .ok { line with importPaths := line.importPaths ++ paths.map fun p => ⟨String.ofList p⟩ }
  | .jobs =>
    match number? value with
    | some n => .ok { line with jobs := n }
    | none => .error .valueValidation
  | .generator switch => .ok { line with values := (switch, value) :: line.values }

def raise (line : CommandLine) : Flag → Except UsageError CommandLine
  | .verbose => .ok { line with verbose := true }
  | .help => .error .displayHelp
  | .version => .error .displayVersion

/-! ## Reading -/

/-- How far the arguments are read. -/
structure Reading where
  line : CommandLine
  /-- The setting met last, with its value once that is known. It takes effect when the next switch
  or file is met. -/
  pending : Option (Setting × Option String)
  /-- Whether a bare `--` was met. -/
  onlyFiles : Bool
deriving DecidableEq, Repr

namespace Reading

def start : Reading := ⟨⟨[], false, 1, [], []⟩, none, false⟩

/-- Lets the pending setting take effect. -/
def settle (r : Reading) : Except UsageError Reading :=
  match r.pending with
  | none => .ok r
  | some (_, none) => .error .invalidValue
  | some (setting, some value) => do
    return { r with line := ← r.line.set setting value, pending := none }

/-- Meets a switch without a value. -/
def meetFlag (r : Reading) (flag : Flag) : Except UsageError Reading := do
  let r ← r.settle
  return { r with line := ← r.line.raise flag }

/-- Meets a switch that takes a value, perhaps together with it. -/
def meetSetting (r : Reading) (setting : Setting) (value : Option String) :
    Except UsageError Reading := do
  let r ← r.settle
  match value with
  | some value => return { r with line := ← r.line.set setting value }
  | none => return { r with pending := some (setting, none) }

def meetFile (r : Reading) (file : String) : Except UsageError Reading := do
  let r ← r.settle
  return { r with line := { r.line with files := r.line.files ++ [file] } }

/-- Meets an argument behind two dashes. -/
def meetLong (generatorSwitches : List String) (r : Reading) (text : List Char) :
    Except UsageError Reading :=
  let value := match text.dropWhile (· ≠ '=') with
    | _ :: value => some (String.ofList value)
    | [] => none
  match long? generatorSwitches (String.ofList (text.takeWhile (· ≠ '='))), value with
  | none, _ => .error .unknownArgument
  | some (.inl _), some _ => .error .tooManyValues
  | some (.inl flag), none => r.meetFlag flag
  | some (.inr setting), value => r.meetSetting setting value

/-- Meets letters behind one dash. What follows the letter of a setting is its value. -/
def meetShort (r : Reading) : List Char → Except UsageError Reading
  | [] => .ok r
  | c :: rest =>
    match short? c with
    | none => .error .unknownArgument
    | some (.inl flag) => do (← r.meetFlag flag).meetShort rest
    | some (.inr setting) =>
      match rest with
      | [] => r.meetSetting setting none
      | '=' :: value => r.meetSetting setting (some (String.ofList value))
      | value => r.meetSetting setting (some (String.ofList value))

/-- Meets an argument that is no switch: the value that a setting waits for, or a file. -/
def meetWord (r : Reading) (arg : String) : Except UsageError Reading :=
  match r.pending with
  | some (setting, none) => .ok { r with pending := some (setting, some arg) }
  | _ => r.meetFile arg

def meet (generatorSwitches : List String) (r : Reading) (arg : String) :
    Except UsageError Reading :=
  if r.onlyFiles then r.meetFile arg
  else
    match arg.toList with
    | ['-', '-'] => .ok { r with onlyFiles := true }
    | '-' :: '-' :: text => r.meetLong generatorSwitches text
    | ['-'] => r.meetWord arg
    | '-' :: letters => r.meetShort letters
    | _ => r.meetWord arg

end Reading

/-- Reads the arguments behind the name of the program. -/
def parse (generatorSwitches : List String) (args : List String) :
    Except UsageError CommandLine := do
  let reading ← args.foldlM (Reading.meet generatorSwitches) Reading.start
  let reading ← reading.settle
  if reading.line.files.isEmpty then throw .missingRequiredArgument
  let line := reading.line
  return if line.importPaths.isEmpty then { line with importPaths := [⟨"."⟩] } else line

/-- The last value of a generator's switch. -/
def value? (line : CommandLine) (switch : String) : Option String := line.values.lookup switch

end CommandLine

end SchemaCompiler
