import SchemaCompiler.Generator
import SchemaCompiler.Page.Html

/-!
The generator of documentation pages: one page for each document.
-/

namespace SchemaCompiler.Pages

/-- The name in its errors. -/
def name : String := "doc"

def generate (a : Assignment) : Work GenerateError Unit := do
  let options ←
    match PageOptions.ofMembers a.options with
    | .ok options => pure options
    | .error fault => Work.fail (.invalidOptions (PageOptions.refused fault))
  if ← Work.perform (.isDone a.cancel) then
    Work.fail .cancelled
  let page := Text.encode (Page.page a.document options)
  let file := Page.fileName a.document.name options
  Work.perform (.log (.writingPage a.document.name file page.length))
  Work.writeFile a.output file page

def generator : Generator := fun a => (generate a).attributed name a.document

end SchemaCompiler.Pages
