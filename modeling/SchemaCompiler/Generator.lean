import SchemaCompiler.Document
import SchemaCompiler.Fault
import SchemaCompiler.Json
import SchemaCompiler.Output

/-!
Generators: what turns a document into files.
-/

namespace SchemaCompiler

/-- Why a generator gave up on a document. -/
inductive GenerateError where
  | pluginNotFound (reason : String)
  /-- A plugin did not keep to the exchange of a request and a response. -/
  | pluginProtocol (reason : String)
  /-- A failure in the generator's own words. -/
  | reported (message : String)
  | output (error : OutputError)
  | cancelled
  | invalidOptions (reason : String)
deriving DecidableEq, Repr

def GenerateError.message : GenerateError → String
  | pluginNotFound reason => "plugin not found: " ++ reason
  | pluginProtocol reason => "plugin protocol error: " ++ reason
  | reported message => message
  | output error => error.message
  | cancelled => "cancelled"
  | invalidOptions reason => "invalid options: " ++ reason

/-- An error with the generator and the document that it arose for. -/
structure GeneratorError where
  generator : String
  document : String
  cause : GenerateError
deriving DecidableEq, Repr

def GeneratorError.message (e : GeneratorError) : String :=
  e.generator ++ ": " ++ e.document ++ ": " ++ e.cause.message

/-- The members of a JSON object. -/
abbrev Options := List (String × Json)

/-- The options as compact JSON text. -/
def Options.text (options : Options) : String := (Json.object options).text

/-- What a generator is handed for one document. -/
structure Assignment where
  output : Output
  cancel : CancelContext
  document : Document
  options : Options

/-- Work that may stop with an error or a panic. -/
abbrev Work (ε α : Type) := ExceptT (Abort ε) Program α

namespace Work

def perform {ε : Type} (action : Action) : Work ε action.Answer :=
  ExceptT.lift (Program.perform action)

def fail {ε α : Type} (e : ε) : Work ε α := throw (.failed e)

def panic {ε α : Type} (p : Panic) : Work ε α := throw (.panicked p)

/-- Work that cannot panic. -/
def ofExceptT {ε α : Type} (program : ExceptT ε Program α) : Work ε α :=
  ExceptT.adapt Abort.failed program

/-- Work whose errors are said in another way. -/
def mapError {ε δ α : Type} (f : ε → δ) (work : Work ε α) : Work δ α :=
  ExceptT.adapt
    (fun
      | .failed e => .failed (f e)
      | .panicked p => .panicked p)
    work

/-- Names the generator and the document in every error. -/
def attributed {α : Type} (generator : String) (doc : Document) (work : Work GenerateError α) :
    Work GeneratorError α :=
  work.mapError (⟨generator, doc.name, ·⟩)

/-- Writes a whole file. -/
def writeFile (output : Output) (name : String) (content : Bytes) : Work GenerateError Unit :=
  ofExceptT (ExceptT.adapt .output (output.writeFile name content))

end Work

/-- Its errors name the generator and the document. -/
abbrev Generator := Assignment → Work GeneratorError Unit

end SchemaCompiler
