import SchemaCompiler.Json.Record

/-!
Options of the documentation pages.
-/

namespace SchemaCompiler

structure PageOptions where
  /-- Stands in the first heading in place of the document's name. -/
  title : Option String
  /-- Whether the page is HTML and not Markdown. -/
  html : Bool
deriving DecidableEq, Repr

namespace PageOptions

def default : PageOptions := ⟨none, false⟩

/-- The options in a list of members. Other members are refused. -/
def ofMembers (members : List (String × Json)) : Json.Decoded PageOptions := do
  let slots :=
    Json.Slots.pair (.optional "title" (Json.asOptional Json.asString) none)
      (.optional "html" Json.asBoolean false)
  let (title, html) ← slots.decodeOnly ["title", "html"] members
  return ⟨title, html⟩

/-- Options that say nothing are left out. -/
def toJson (options : PageOptions) : Json :=
  .object
    ((options.title.map fun title => ("title", .string title)).toList ++
      (if options.html then [("html", .boolean true)] else []))

/-- What the message of refused options says. -/
def refused (fault : Json.ShapeFault) : String := "Invalid doc options: " ++ fault.message

end PageOptions

end SchemaCompiler
