import SchemaCompiler.Generator

/-!
Small generators, each with one behaviour, to exercise a run with.
-/

namespace SchemaCompiler

inductive Behaviour where
  /-- Writes the generator's name to a text file named after the document. -/
  | write
  /-- Writes the options to a JSON file named after the document. -/
  | options
  /-- Writes the document's name to a given file. -/
  | name (file : String)
  /-- Gives up. -/
  | fail (cause : GenerateError)
  /-- Gives up on one document and writes the others. -/
  | failOn (document : String)
  | panic
  /-- Panics on one document and writes the others. -/
  | panicOn (document : String)
  /-- Cancels the run and then writes. -/
  | cancel
deriving DecidableEq, Repr

namespace Behaviour

def writeName (name : String) (a : Assignment) : Work GenerateError Unit :=
  Work.writeFile a.output (a.document.name ++ ".txt") (Text.encode name)

def bug (a : Assignment) : Panic := ⟨.text ("generator bug on " ++ a.document.name), none⟩

def generate (name : String) (a : Assignment) : Behaviour → Work GenerateError Unit
  | write => writeName name a
  | options => Work.writeFile a.output (a.document.name ++ ".json") (Text.encode a.options.text)
  | .name file => Work.writeFile a.output file (Text.encode a.document.name)
  | fail cause => Work.fail cause
  | failOn document =>
    if a.document.name = document then Work.fail (.reported "failed") else writeName name a
  | panic => Work.panic (bug a)
  | panicOn document =>
    if a.document.name = document then Work.panic (bug a) else writeName name a
  | cancel => do
    Work.perform (.cancel a.cancel)
    writeName name a

/-- A generator with this behaviour. -/
def generator (b : Behaviour) (name : String) : Generator := fun a =>
  (b.generate name a).attributed name a.document

end Behaviour

end SchemaCompiler
