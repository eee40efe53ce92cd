import SchemaCompiler.Document.Json
import SchemaCompiler.Json.Fields
import SchemaCompiler.Wire.Base64
import SchemaCompiler.Wire.Frame

/-!
What a compiler and a plugin say to each other: one request, then one response, each as the JSON
payload of a frame.
-/

namespace SchemaCompiler

/-- The documents of one run and what to generate from them. -/
structure Request where
  filesToGenerate : List String
  /-- The generator's options as JSON text. -/
  parameter : String
  documents : List Document
deriving BEq, Repr, Inhabited

structure ResponseFile where
  name : String
  content : Bytes
deriving DecidableEq, Repr, Inhabited

/-- A failure if `error` is not empty, else the generated files. -/
structure Response where
  error : String
  files : List ResponseFile
deriving DecidableEq, Repr, Inhabited

/-! ## JSON form -/

def Request.toJson (r : Request) : Json :=
  .object
    [("files_to_generate", Json.strings r.filesToGenerate), ("parameter", .string r.parameter),
     ("documents", .array (r.documents.map Document.toJson))]

def Request.ofJson : Json → Json.Decoded Request := fun j => do
  let (filesToGenerate, parameter, documents) ←
    (Json.Slots.pair (.optional "files_to_generate" (Json.asList Json.asString) []) <|
      .pair (.optional "parameter" Json.asString "") <|
      .optional "documents" (Json.asList Document.ofJson) []).decode "struct Request" 3 j
  return ⟨filesToGenerate, parameter, documents⟩

def ResponseFile.toJson (file : ResponseFile) : Json :=
  .object [("name", .string file.name), ("content", .string (Base64.encode file.content))]

/-- An empty error is left out. -/
def Response.toJson (r : Response) : Json :=
  .object
    ((if r.error.isEmpty then [] else [("error", .string r.error)]) ++
      [("files", .array (r.files.map ResponseFile.toJson))])

/-! ## Reading from a text -/

open Json (Stop Fields)
open Json.Reader (Reading)

/-- Definitions begin with their tag, whatever comes first in the text. -/
def Definition.read (depth : Nat) (bytes : Bytes) : Except Stop (Reading Definition) := do
  let ((tag, content), rest) ←
    Json.Reader.asTagged "definition" expected (Json.Reader.asVariantName Tag.variants) depth bytes
  match ofTagged tag content with
  | .ok definition => return (definition, rest)
  | .error fault => Json.Reader.shapeFault fault rest

def Document.read (depth : Nat) (bytes : Bytes) : Except Stop (Reading Document) := do
  let ((name, path, definitions), rest) ←
    Fields.read
      (fun depth =>
        Fields.pair (.required "name" Json.Reader.asString) <|
          .pair (.required "path" Json.Reader.asString) <|
          .optional "definitions" (Json.Reader.asList Definition.read depth) [])
      "struct Document" 3 depth bytes
  return (⟨name, path, definitions⟩, rest)

def Request.read (depth : Nat) (bytes : Bytes) : Except Stop (Reading Request) := do
  let names := Json.Reader.asList fun _ => Json.Reader.asString
  let ((filesToGenerate, parameter, documents), rest) ←
    Fields.read
      (fun depth =>
        Fields.pair (.optional "files_to_generate" (names depth) []) <|
          .pair (.optional "parameter" Json.Reader.asString "") <|
          .optional "documents" (Json.Reader.asList Document.read depth) [])
      "struct Request" 3 depth bytes
  return (⟨filesToGenerate, parameter, documents⟩, rest)

/-- The bytes that a text in base 64 stands for. -/
def ResponseFile.decodeContent (text : String) : Json.Decoded Bytes :=
  (Base64.decode text).mapError fun fault => .custom fault.message

def ResponseFile.read (depth : Nat) (bytes : Bytes) : Except Stop (Reading ResponseFile) := do
  let ((name, content), rest) ←
    Fields.read
      (fun _ =>
        Fields.pair (.required "name" Json.Reader.asString) <|
          .optional "content" (Json.Reader.decoded decodeContent) [])
      "struct ResponseFile" 2 depth bytes
  return (⟨name, content⟩, rest)

/-- The files may also stand under the name `file`. -/
def Response.read (depth : Nat) (bytes : Bytes) : Except Stop (Reading Response) := do
  let ((error, files), rest) ←
    Fields.read
      (fun depth =>
        Fields.pair (.optional "error" Json.Reader.asString "") <|
          .field "files" ["file"] (Json.Reader.asList ResponseFile.read depth) (some []))
      "struct Response" 2 depth bytes
  return (⟨error, files⟩, rest)

/-! ## Frames -/

/-- Why a message could not be exchanged. -/
inductive WireFault where
  | frame (fault : Frame.Fault)
  /-- The payload is not the JSON text of a message. -/
  | malformed (payload : Bytes) (stop : Stop)
deriving DecidableEq, Repr

def WireFault.message : WireFault → String
  | frame fault => fault.message
  | malformed payload stop => "malformed message: " ++ stop.message payload

namespace Wire

/-- A message in a frame. -/
def encode (message : Json) : Except WireFault Bytes :=
  (Frame.write (Text.encode message.text)).mapError .frame

/-- The only message of a byte sequence. -/
def decode {α : Type} (read : Nat → Bytes → Except Stop (Reading α)) (bytes : Bytes) :
    Except WireFault α := do
  let payload ← (Frame.readOnly bytes).mapError .frame
  (Json.readAs read payload).mapError (.malformed payload)

end Wire

def Request.encode (r : Request) : Except WireFault Bytes := Wire.encode r.toJson

def Request.decode : Bytes → Except WireFault Request := Wire.decode Request.read

def Response.encode (r : Response) : Except WireFault Bytes := Wire.encode r.toJson

def Response.decode : Bytes → Except WireFault Response := Wire.decode Response.read

end SchemaCompiler
