import SchemaCompiler.Commonmark.Character

/-!
HTML inside markup.

A scanner takes the text behind a `<` and answers with the text behind the construct. It leaves the
inside of a tag uninterpreted.
-/

namespace SchemaCompiler.Commonmark.Tag

/-! ## Attributes -/

def isAttributeStart (c : Char) : Bool := isLetter c || c == '_' || c == ':'

def isAttributeContinue (c : Char) : Bool := isAlphanumeric c || "_.:-".toList.contains c

def isUnquoted (c : Char) : Bool := !isWhitespace c && !"\"'=<>`".toList.contains c

/-- Behind the quote that ends a value. -/
def afterQuote? (quote : Char) : List Char → Option (List Char)
  | [] => none
  | c :: rest => if c = quote then some rest else afterQuote? quote rest

/-- Behind the value of an attribute. -/
def afterValue? : List Char → Option (List Char)
  | '"' :: rest => afterQuote? '"' rest
  | '\'' :: rest => afterQuote? '\'' rest
  | c :: rest => if isUnquoted c then some (rest.dropWhile isUnquoted) else none
  | [] => none

/-- Behind the name of an attribute and its value, if it has one. -/
def afterAttribute? : List Char → Option (List Char)
  | [] => none
  | c :: rest =>
    if isAttributeStart c then
      let behind := rest.dropWhile isAttributeContinue
      match behind.dropWhile isWhitespace with
      | '=' :: more => afterValue? (more.dropWhile isWhitespace)
      | _ => some behind
    else none

/-- Behind all attributes and the blanks in front of each; `fuel` bounds their number. -/
def afterAttributes? : (fuel : Nat) → List Char → Option (List Char)
  | 0, _ => none
  | fuel + 1, cs =>
    match cs.dropWhile isWhitespace with
    | [] => none
    | c :: rest =>
      if c = '/' ∨ c = '>' then some (c :: rest)
      else if (cs.head?.map isWhitespace).getD false then
        match afterAttribute? (c :: rest) with
        | some behind => afterAttributes? fuel behind
        | none => none
      else none

/-! ## Constructs -/

def isTagContinue (c : Char) : Bool := isAlphanumeric c || c == '-'

/-- Behind an opening or a closing tag. -/
def afterTag? (cs : List Char) : Option (List Char) :=
  match cs with
  | '/' :: c :: rest =>
    if isLetter c then
      match (rest.dropWhile isTagContinue).dropWhile isWhitespace with
      | '>' :: behind => some behind
      | _ => none
    else none
  | c :: rest =>
    if isLetter c then
      let behind := rest.dropWhile isTagContinue
      match afterAttributes? (behind.length + 1) behind with
      | some ('/' :: '>' :: behind) => some behind
      | some ('>' :: behind) => some behind
      | _ => none
    else none
  | [] => none

def behindWord? (word : String) (cs : List Char) : Option (List Char) :=
  (splitAtWord? word.toList cs).map (·.2)

/-- Behind a comment, whose text may be missing together with one or two of its dashes. -/
def afterComment? (cs : List Char) : Option (List Char) :=
  match cs with
  | '>' :: behind => some behind
  | '-' :: '>' :: behind => some behind
  | cs => behindWord? "-->" cs

/-- Behind a tag, a comment, an instruction, a declaration or a piece of character data. -/
def afterHtml? (cs : List Char) : Option (List Char) :=
  match cs with
  | '!' :: '-' :: '-' :: rest => afterComment? rest
  | '!' :: '[' :: 'C' :: 'D' :: 'A' :: 'T' :: 'A' :: '[' :: rest => behindWord? "]]>" rest
  | '!' :: c :: rest => if isLetter c then behindWord? ">" rest else none
  | '?' :: rest => behindWord? "?>" rest
  | cs => afterTag? cs

/-! ## Blocks of HTML -/

/-- Where a block of HTML ends. -/
inductive BlockEnd where
  /-- On the first line with this text. -/
  | atText (text : List Char)
  /-- In front of the next blank line. -/
  | atBlank
deriving DecidableEq, Repr

/-- Elements whose content is no markup. -/
def literalElements : List String := ["pre", "style", "script", "textarea"]

/-- Elements that begin a block of HTML wherever a line starts with them. -/
def blockElements : List String :=
  ["address", "article", "aside", "base", "basefont", "blockquote", "body", "caption", "center",
   "col", "colgroup", "dd", "details", "dialog", "dir", "div", "dl", "dt", "fieldset",
   "figcaption", "figure", "footer", "form", "frame", "frameset", "h1", "h2", "h3", "h4", "h5",
   "h6", "head", "header", "hr", "html", "iframe", "legend", "li", "link", "main", "menu",
   "menuitem", "nav", "noframes", "ol", "optgroup", "option", "p", "param", "search", "section",
   "summary", "table", "tbody", "td", "tfoot", "th", "thead", "title", "tr", "track", "ul"]

def endsElement (cs : List Char) : Bool :=
  match cs with
  | [] => true
  | c :: _ => isWhitespace c || c == '>'

/-- The end of a block that starts with one of `literalElements`. -/
def literalEnd? (cs : List Char) : Option BlockEnd :=
  literalElements.findSome? fun name =>
    match afterWord? name.toList cs with
    | some behind =>
      if endsElement behind then some (.atText ("</" ++ name ++ ">").toList) else none
    | none => none

/-- Whether a tag of one of `blockElements` comes first. -/
def startsBlockElement (cs : List Char) : Bool :=
  let cs := match cs with
    | '/' :: rest => rest
    | cs => cs
  let behind := cs.dropWhile isAlphanumeric
  blockElements.contains (String.ofList (lowered (cs.takeWhile isAlphanumeric))) &&
    (endsElement behind || (after? ['/', '>'] behind).isSome)

/-- Whether a single tag is all there is on the line. -/
def isLoneTag (cs : List Char) : Bool :=
  match afterTag? cs with
  | some behind => behind.all isSpace
  | none => false

/-- The end of the block of HTML that the text behind a `<` starts. A lone tag starts one only
where no paragraph is open. -/
def blockEnd? (inParagraph : Bool) (cs : List Char) : Option BlockEnd :=
  match literalEnd? cs with
  | some blockEnd => some blockEnd
  | none =>
    match cs with
    | '!' :: '-' :: '-' :: _ => some (.atText "-->".toList)
    | '?' :: _ => some (.atText "?>".toList)
    | '!' :: '[' :: 'C' :: 'D' :: 'A' :: 'T' :: 'A' :: '[' :: _ => some (.atText "]]>".toList)
    | cs =>
      match cs with
      | '!' :: c :: _ => if isLetter c then some (.atText ['>']) else none
      | cs =>
        if startsBlockElement cs then some .atBlank
        else if ¬inParagraph ∧ isLoneTag cs then some .atBlank
        else none

end SchemaCompiler.Commonmark.Tag
