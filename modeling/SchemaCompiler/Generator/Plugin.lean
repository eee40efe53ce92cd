import SchemaCompiler.Generator
import SchemaCompiler.Wire.Message

/-!
Generators that are programs of their own.

A plugin is an executable on the search path. For each document it is started anew, reads a request
and answers with a response. Nothing is written unless the response is sound as a whole.
-/

namespace SchemaCompiler

structure Plugin where
  /-- What the name of the executable begins with. -/
  namePrefix : String
  name : String
  /-- How long one run may take, in nanoseconds. -/
  timeout : Option Nat
deriving DecidableEq, Repr

namespace Plugin

/-- Five minutes. -/
def defaultTimeout : Nat := 300 * 1000000000

def executable (p : Plugin) : String := p.namePrefix ++ p.name

/-- The place of the executable. -/
def resolve (p : Plugin) : ExceptT GenerateError Program Path :=
  ExceptT.adapt .pluginNotFound (ExceptT.mk (Program.perform (.locate p.executable)))

/-- What a plugin is asked for one document. -/
def request (a : Assignment) : Request :=
  { filesToGenerate := [a.document.name], parameter := a.options.text, documents := [a.document] }

/-- An executable that is missing or may not be run counts as a plugin that was not found. -/
def startError (executable : Path) (e : IoError) : GenerateError :=
  let message := "failed to start '" ++ executable.text ++ "': " ++ e.text
  match e.kind with
  | .notFound | .permissionDenied => .pluginNotFound message
  | .other => .pluginProtocol message

/-- What a plugin that failed is blamed for: its status and then its own words. -/
def exitMessage (status : Option Nat) (words : String) : String :=
  let how := match status with
    | some code => "exit code " ++ toString code
    | none => "a signal"
  "plugin exited with " ++ how ++ (if words.isEmpty then "" else ": " ++ words)

/-- The first file whose name is refused. -/
def nameError? (files : List ResponseFile) : Option OutputError :=
  files.findSome? fun file => (FileName.fault? file.name).map (.invalidName file.name)

/-- Writes what a plugin that ended well answered. -/
def useOutput (output : Output) (bytes : Bytes) : Work GenerateError Nat := do
  match Response.decode bytes with
  | .error e => Work.fail (.pluginProtocol ("malformed response: " ++ e.message))
  | .ok response =>
    unless response.error.isEmpty do
      Work.fail (.reported response.error)
    if let some e := nameError? response.files then
      Work.fail (.output e)
    response.files.forM fun file => Work.writeFile output file.name file.content
    return response.files.length

def generate (p : Plugin) (a : Assignment) : Work GenerateError Unit := do
  let executable ← Work.ofExceptT p.resolve
  let input ←
    match (request a).encode with
    | .ok input => pure input
    | .error e => Work.fail (.pluginProtocol ("failed to encode request: " ++ e.message))
  let limit ←
    match p.timeout with
    | some timeout => Work.perform (.withTimeout a.cancel timeout)
    | none => pure a.cancel
  if ← Work.perform (.isDone limit) then
    Work.fail .cancelled
  Work.perform (.log (.startingPlugin executable a.document.name))
  match ← Work.perform (.run executable input limit) with
  | .notStarted e => Work.fail (startError executable e)
  | .stopped => Work.fail .cancelled
  | .broken reason => Work.fail (.pluginProtocol reason)
  | .exited status output messages =>
    let words := Text.trim (Text.decodeLossy messages)
    unless status = some 0 do
      Work.fail (.pluginProtocol (exitMessage status words))
    unless words.isEmpty do
      Work.perform (.log (.pluginMessages executable words))
    let count ← useOutput a.output output
    Work.perform (.log (.pluginFinished executable count))

/-- Its errors name the executable. -/
def generator (p : Plugin) : Generator := fun a => (p.generate a).attributed p.executable a.document

end Plugin

end SchemaCompiler
