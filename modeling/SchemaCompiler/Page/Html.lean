import SchemaCompiler.Commonmark.Html
import SchemaCompiler.Page.Markdown

/-!
Documentation pages as files.
-/

namespace SchemaCompiler.Page

/-- The Markdown page as HTML. Every heading carries the mark that links to it name. -/
def html (doc : Document) (options : PageOptions) : String :=
  let headingId (text : List Char) : List Char := (anchor (String.ofList text)).toList
  String.ofList (Commonmark.toHtml headingId (markdown doc options).toList)

/-- The page in the format that the options ask for. -/
def page (doc : Document) (options : PageOptions) : String :=
  if options.html then html doc options else markdown doc options

/-- The name of the file that holds the page of the document `name`. -/
def fileName (name : String) (options : PageOptions) : String :=
  name ++ (if options.html then ".html" else ".md")

end SchemaCompiler.Page
