import SchemaCompiler.Commonmark.Block

/-!
Markup as HTML.
-/

namespace SchemaCompiler.Commonmark

/-! ## Escaping -/

/-- A character between tags. -/
def escapeText (c : Char) : List Char :=
  if c = '&' then "&amp;".toList
  else if c = '<' then "&lt;".toList
  else if c = '>' then "&gt;".toList
  else [c]

/-- A character between quotes. -/
def escapeAttribute (c : Char) : List Char :=
  if c = '"' then "&quot;".toList
  else if c = '\'' then "&#x27;".toList
  else escapeText c

/-- The characters of an address that stand for themselves. -/
def isAddressChar (c : Char) : Bool :=
  isAlphanumeric c || "!#$%()*+,-./:;=?@_~".toList.contains c

def percentDigit (n : Nat) : Char := Char.ofNat (if n < 10 then 48 + n else 55 + n)

/-- The bytes of a character, each as two hexadecimal digits. -/
def percentEncoded (c : Char) : List Char :=
  (String.utf8EncodeChar c).flatMap fun b =>
    ['%', percentDigit (b.toNat / 16), percentDigit (b.toNat % 16)]

/-- A character of an address between quotes. -/
def escapeAddress (c : Char) : List Char :=
  if isAddressChar c then [c]
  else if c = '&' then "&amp;".toList
  else if c = '\'' then "&#x27;".toList
  else percentEncoded c

/-! ## Inlines -/

mutual

/-- What stands for an image that cannot be shown. -/
def Inline.alternative : Inline → List Char
  | .text cs | .code cs | .html cs => cs.flatMap escapeAttribute
  | .softBreak | .hardBreak => [' ']
  | .emphasis children | .strong children | .link _ _ children | .image _ _ children =>
    alternatives children
  | .mailLink address => address.flatMap escapeAttribute

def alternatives : List Inline → List Char
  | [] => []
  | inline :: more => inline.alternative ++ alternatives more

end

def titleAttribute (title : List Char) : List Char :=
  if title.isEmpty then [] else " title=\"".toList ++ title.flatMap escapeAttribute ++ ['"']

mutual

def Inline.toHtml : Inline → List Char
  | .text cs => cs.flatMap escapeText
  | .code cs => "<code>".toList ++ cs.flatMap escapeText ++ "</code>".toList
  | .html cs => cs
  | .softBreak => ['\n']
  | .hardBreak => "<br />\n".toList
  | .emphasis children => "<em>".toList ++ inlinesToHtml children ++ "</em>".toList
  | .strong children => "<strong>".toList ++ inlinesToHtml children ++ "</strong>".toList
  | .link destination title children =>
    "<a href=\"".toList ++ destination.flatMap escapeAddress ++ ['"'] ++ titleAttribute title ++
      ['>'] ++ inlinesToHtml children ++ "</a>".toList
  | .mailLink address =>
    "<a href=\"mailto:".toList ++ address.flatMap escapeAddress ++ "\">".toList ++
      address.flatMap escapeText ++ "</a>".toList
  | .image destination title children =>
    "<img src=\"".toList ++ destination.flatMap escapeAddress ++ "\" alt=\"".toList ++
      alternatives children ++ ['"'] ++ titleAttribute title ++ " />".toList

def inlinesToHtml : List Inline → List Char
  | [] => []
  | inline :: more => inline.toHtml ++ inlinesToHtml more

end

/-! ## Blocks -/

/-- What a page needs to write blocks. -/
structure Context where
  definitions : List LinkDefinition
  /-- The mark of a heading with a given text. -/
  headingId : List Char → List Char

/-- HTML with its characters back to front. -/
abbrev Written := List Char

def Written.put (out : Written) (cs : List Char) : Written := cs.reverse ++ out

def Written.putString (out : Written) (s : String) : Written := out.put s.toList

/-- Goes to the start of a line. -/
def Written.line (out : Written) : Written :=
  match out with
  | [] => []
  | c :: _ => if c = '\n' then out else '\n' :: out

/-- The language of code, the first word behind its fence. -/
def codeClass (info : Option (List Char)) : List Char :=
  match (info.getD []).takeWhile (· != ' ') with
  | [] => "<pre><code>".toList
  | language =>
    "<pre><code class=\"language-".toList ++ language.flatMap escapeAttribute ++ "\">".toList

def listTag : Option Nat → String
  | none => "<ul>\n"
  | some 1 => "<ol>\n"
  | some n => "<ol start=\"" ++ toString n ++ "\">\n"

mutual

/-- Writes a block. In a tight list paragraphs have no tags. -/
def Block.write (context : Context) (tight : Bool) (out : Written) : Block → Written
  | .paragraph text =>
    let content := inlinesToHtml (readInlines context.definitions text)
    if tight then out.put content
    else ((out.line.putString "<p>").put content).putString "</p>\n"
  | .heading level text =>
    let inlines := readInlines context.definitions text
    let tag := 'h' :: (toString level).toList
    let id := (context.headingId (plainTexts inlines)).flatMap escapeAttribute
    out.line.put
      ('<' :: tag ++ " id=\"".toList ++ id ++ "\">".toList ++ inlinesToHtml inlines ++
        "</".toList ++ tag ++ ">\n".toList)
  | .code info text =>
    ((out.line.put (codeClass info)).put (text.flatMap escapeText)).putString "</code></pre>\n"
  | .html text => out.put text
  | .rule => out.line.putString "<hr />\n"
  | .quote children =>
    (writeBlocks context false (out.line.putString "<blockquote>\n") children).putString
      "</blockquote>\n"
  | .list start tight items =>
    (writeItems context tight (out.line.putString (listTag start)) items).putString
      (if start.isNone then "</ul>\n" else "</ol>\n")

def writeBlocks (context : Context) (tight : Bool) (out : Written) : List Block → Written
  | [] => out
  | block :: blocks => writeBlocks context tight (block.write context tight out) blocks

def writeItems (context : Context) (tight : Bool) (out : Written) : List (List Block) → Written
  | [] => out
  | item :: items =>
    writeItems context tight
      ((writeBlocks context tight (out.line.putString "<li>") item).putString "</li>\n") items

end

/-- A text as HTML, its headings marked by `headingId`. -/
def toHtml (headingId : List Char → List Char) (cs : List Char) : List Char :=
  let (blocks, definitions) := readBlocks cs
  (writeBlocks ⟨definitions, headingId⟩ false [] blocks).reverse

end SchemaCompiler.Commonmark
