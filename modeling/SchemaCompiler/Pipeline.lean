import SchemaCompiler.CompileError
import SchemaCompiler.Document.Naming
import SchemaCompiler.Run

/-!
The pipeline: from input files to generated ones.

All inputs are read, parsed and checked before anything is generated. Then every activated generator
is called for every document.
-/

namespace SchemaCompiler

structure PipelineSettings where
  /-- Where inputs are looked for that do not exist as given. -/
  importPaths : List Path
  /-- With more than one job, all calls are made, at the same time. -/
  jobs : Nat
deriving DecidableEq, Repr

namespace Pipeline

/-! ## Loading -/

def unknownExtension (input : String) : CompileError :=
  .invalidInput
    (input ++ ": unrecognised file extension, expected one of: ." ++
      String.intercalate ", ." sourceExtensions)

/-- What is wrong with a list of inputs, before any of them is looked at. -/
def inputsError? (inputs : List String) : Option CompileError :=
  if inputs.isEmpty then some (.invalidInput "no input files")
  else (inputs.find? fun input => !hasSourceExtension input).map unknownExtension

/-- The first of several places that holds a file. -/
def firstFile? : List Path → Program (Option Path)
  | [] => return none
  | path :: paths => do
    if ← Program.perform (.isFile path) then return some path
    firstFile? paths

/-- The place of an input: as given if that is absolute or exists, else below an import path. -/
def resolve (importPaths : List Path) (input : String) : Program Path := do
  let given : Path := ⟨input⟩
  if given.isAbsolute then return given
  return (← firstFile? (given :: importPaths.map (·.join input))).getD given

/-- Reads and parses one input. -/
def parseInput (importPaths : List Path) (names : DocumentNames) (input : String) :
    ExceptT CompileError Program (Document × DocumentNames) := do
  let path ← (resolve importPaths input : Program Path)
  (Program.perform (.log (.parsing input path)) : Program Unit)
  match ← (Program.perform (.read path) : Program (Except IoError Bytes)) with
  | .error e => throw (.unreadable path e)
  | .ok bytes =>
    match Text.decode? bytes with
    | none => throw (.parse ⟨input, .notText⟩)
    | some source =>
      match names.parse input source with
      | (.error e, _) => throw (.parse e)
      | (.ok doc, names) => return (doc, names)

def parseInputs (importPaths : List Path) (names : DocumentNames) :
    List String → ExceptT CompileError Program (List Document)
  | [] => return []
  | input :: inputs => do
    let (doc, names) ← parseInput importPaths names input
    return doc :: (← parseInputs importPaths names inputs)

/-- The documents of all inputs, in order, checked together. -/
def load (settings : PipelineSettings) (inputs : List String) :
    ExceptT CompileError Program (List Document) := do
  if let some e := inputsError? inputs then
    throw e
  let docs ← parseInputs settings.importPaths .empty inputs
  let diagnostics := checkDocuments docs
  unless diagnostics.isEmpty do
    (Program.perform (.log (.checkFailed diagnostics.length)) : Program Unit)
    throw (.typeCheck diagnostics)
  return docs

/-! ## Generating -/

/-- An activated entry with its place among all entries and its output. -/
structure ActiveEntry where
  index : Nat
  entry : Entry Generator
  output : Output

/-- The activated entries, each with an output of its own. -/
def activate : (index : Nat) → List (Entry Generator) → Program (List ActiveEntry)
  | _, [] => return []
  | index, entry :: entries => do
    if entry.activated then
      let output ← Output.new entry.directory
      return ⟨index, entry, output⟩ :: (← activate (index + 1) entries)
    else activate (index + 1) entries

/-- One call of a generator. -/
def call (cancel : CancelContext) (active : ActiveEntry) (doc : Document) :
    Work CompileError Unit := do
  if ← Work.perform (.isDone cancel) then
    Work.fail .cancelled
  let entry := active.entry
  Work.perform (.log (.generating entry.name doc.name entry.directory))
  Work.perform (.call active.index doc.name)
  (entry.generator ⟨active.output, cancel, doc, entry.options⟩).mapError .generator

/-- All calls, ordered by entry and then by document. -/
def calls (cancel : CancelContext) (active : List ActiveEntry) (docs : List Document) :
    List (Work CompileError Unit) :=
  active.flatMap fun a => docs.map (call cancel a)

/-- The first error of several results. -/
def firstError : List (Except CompileError Unit) → Except CompileError Unit
  | [] => .ok ()
  | .ok () :: results => firstError results
  | .error e :: _ => .error e

variable {m : Type → Type} [Monad m]

/-- Calls every activated generator for every document. A single job makes the calls one after
another and stops at the first failure. Several jobs make all calls, their actions interleaved as
the schedule says, and the first failure in the order of calls counts; panics are contained in the
call they arise in. -/
def generate (host : Host m) (schedule : List Nat) (settings : PipelineSettings)
    (cancel : CancelContext) (entries : List (Entry Generator)) (docs : List Document) :
    StateT Run m (Except (Abort CompileError) Unit) := do
  let active ← Run.execute host (activate 0 entries)
  let calls := calls cancel active docs
  if settings.jobs > 1 then
    let results ← Run.executeAll host schedule (calls.map (·.run))
    return (firstError (results.map (contained .internalFault))).mapError .failed
  else
    Run.execute host (calls.forM id).run

/-- Loads the inputs and generates from them. -/
def run (host : Host m) (schedule : List Nat) (settings : PipelineSettings)
    (cancel : CancelContext) (entries : List (Entry Generator)) (inputs : List String) :
    StateT Run m (Except (Abort CompileError) (List Document)) := do
  match ← Run.execute host (load settings inputs).run with
  | .error e => return .error (.failed e)
  | .ok docs =>
    let result ← generate host schedule settings cancel entries docs
    return result.map fun () => docs

end Pipeline

end SchemaCompiler
