import SchemaCompiler.Document.Grammar

/-!
The grammar read by a cursor.

The productions once more, over one token list and an index that moves along it. The end of the
source is a token that is never passed, so a loop that waits for a closing mark has only its items
to stop it there. Nothing here says that they do: a loop counts its rounds, a production that calls
itself counts how deep it is, and where the count runs out there is no outcome at all.

The cursor keeps a history of the tokens that were looked at and of the stretches that were passed:
each round of a loop, each type reference and each constant. An index that the cursor has had is
that of a look in the history or the one that it has last.
-/

namespace SchemaCompiler.Grammar

/-- What the history of a cursor tells. -/
inductive Note where
  /-- The token so far ahead of the index was looked at. -/
  | look (index ahead : Nat)
  /-- A round of a loop, a type reference or a constant was read, from the one index to the other. -/
  | pass (start index : Nat)
deriving DecidableEq, Repr

/-- Where the cursor stood. -/
def Note.index : Note → Nat
  | look index _ => index
  | pass _ index => index

structure Cursor where
  index : Nat
  history : List Note
deriving DecidableEq, Repr

def Cursor.start : Cursor := ⟨0, []⟩

/-- The tokens of a source, and how often a loop may go round and a production may be inside
itself. -/
structure Tape where
  tokens : List Token
  limit : Nat
deriving DecidableEq, Repr

/-- What is read of a tape and the cursor behind it, or nothing where a limit is reached. -/
abbrev Reader := ReaderT Tape (ExceptT Failure (StateT Cursor Option))

namespace Reader

variable {α : Type}

def note (event : Nat → Note) : Reader Unit :=
  modify fun c => { c with history := c.history ++ [event c.index] }

/-! ## Single tokens -/

/-- A token at or behind the cursor. Past the last token the last one is taken. -/
def lookAhead (ahead : Nat) : Reader Token := do
  note (.look · ahead)
  let tape ← read
  let c ← get
  return tape.tokens.getD (min (c.index + ahead) (tape.tokens.length - 1)) ⟨.eof, .start⟩

def look : Reader Token := lookAhead 0

def isNext (kind : TokenKind) : Reader Bool := return (← look).kind = kind

def atEnd : Reader Bool := isNext .eof

/-- Passes the next token, but for the end of the source. -/
def advance : Reader Token := do
  let token ← look
  unless token.kind = .eof do
    modify fun c => { c with index := c.index + 1 }
  return token

/-- Passes a token of a kind if it is next. -/
def eat (kind : TokenKind) : Reader Bool := do
  if ← isNext kind then
    let _ ← advance
    return true
  else return false

def eatMark (mark : Punctuator) : Reader Bool := eat (.punct mark)

def eatKeyword (word : String) : Reader Bool := eat (.name word)

def unexpected (expected : Expectation) : Reader α := do
  let token ← look
  throw (token.position, .unexpected expected token.kind)

def expect (kind : TokenKind) (expected : Expectation) : Reader Position := do
  if ← isNext kind then return (← advance).position
  else unexpected expected

def expectMark (mark : Punctuator) : Reader Position := expect (.punct mark) (.mark mark)

def expectKeyword (word : String) : Reader Position := expect (.name word) (.keyword word)

def expectName : Reader (String × Position) := do
  match (← look).kind with
  | .name name => return (name, (← advance).position)
  | _ => unexpected .name

def description : Reader (Option String) := do
  match (← look).kind with
  | .string text => do
    let _ ← advance
    return some text
  | _ => return none

/-! ## Repetition -/

/-- What a loop does in a round, or a production that calls itself: a stretch to be passed. -/
def round (body : Reader α) : Reader α := do
  let start := (← get).index
  let a ← body
  note (.pass start ·)
  return a

def unfinished : Reader α := fun _ _ => none

/-- A loop or a production that counts down from the limit. -/
def bounded (counted : Nat → Reader α) : Reader α := do counted (← read).limit

/-- Items up to a closing mark. -/
def itemsUntil (close : Punctuator) (item : Reader α) : Nat → Reader (List α)
  | 0 => unfinished
  | rounds + 1 => do
    if ← eatMark close then return []
    else
      let first ← round item
      return first :: (← itemsUntil close item rounds)

def optionalBlock (openMark close : Punctuator) (item : Reader α) : Reader (List α) := do
  if ← eatMark openMark then bounded (itemsUntil close item)
  else return []

/-- One item and then any number that each follow a bar. -/
def barSeparated (item : Reader α) : Nat → Reader (List α)
  | 0 => unfinished
  | rounds + 1 => do
    let first ← round item
    if ← eatMark .pipe then return first :: (← barSeparated item rounds)
    else return [first]

/-! ## Type references and constants -/

/-- The non-null mark behind a type. -/
def withBang (ref : TypeRef) : Reader TypeRef := do
  if ← eatMark .bang then return .nonNull ref
  else return ref

def typeRef : Nat → Reader TypeRef
  | 0 => unfinished
  | depth + 1 => round do
    if ← eatMark .bracketOpen then
      let inner ← typeRef depth
      let _ ← expectMark .bracketClose
      withBang (.list inner)
    else
      let (name, _) ← expectName
      withBang (.named name)

/-- A constant of one token. -/
def literal (v : Value) : Reader Value := do
  let _ ← advance
  return v

/-- A name and the constant behind its colon. -/
def entry (constant : Reader Value) : Reader (String × Value) := do
  let (name, _) ← expectName
  let _ ← expectMark .colon
  return (name, ← constant)

def value : Nat → Reader Value
  | 0 => unfinished
  | depth + 1 => round do
    let token ← look
    match token.kind with
    | .int text => literal (.int text)
    | .float text => literal (.float text)
    | .string text => literal (.string text)
    | .name name => literal (nameValue name)
    | .punct .bracketOpen => do
      let _ ← advance
      let items ← bounded (itemsUntil .bracketClose (value depth))
      return .list items
    | .punct .braceOpen => do
      let _ ← advance
      let entries ← bounded (itemsUntil .braceClose (entry (value depth)))
      return .object entries
    | .punct .dollar => throw (token.position, .variableUse)
    | _ => unexpected .value

/-! ## Directives and arguments -/

def argument : Reader Argument := do
  let (name, _) ← expectName
  let _ ← expectMark .colon
  return ⟨name, ← bounded value⟩

/-- The directive behind an at sign. -/
def directiveUse (position : Position) : Reader DirectiveUse := do
  let (name, _) ← expectName
  let args ← optionalBlock .parenOpen .parenClose argument
  return ⟨name, args, position⟩

def directiveUses : Nat → Reader (List DirectiveUse)
  | 0 => unfinished
  | rounds + 1 => do
    if ← isNext (.punct .atSign) then
      let position := (← advance).position
      let use ← round (directiveUse position)
      return use :: (← directiveUses rounds)
    else return []

def defaultValue : Reader (Option Value) := do
  if ← eatMark .equals then return some (← bounded value)
  else return none

def inputValue : Reader InputValue := do
  let text ← description
  let (name, position) ← expectName
  let _ ← expectMark .colon
  let ty ← bounded typeRef
  let default ← defaultValue
  let directives ← bounded directiveUses
  return ⟨name, text, ty, default, directives, position⟩

def field : Reader Field := do
  let text ← description
  let (name, position) ← expectName
  let args ← optionalBlock .parenOpen .parenClose inputValue
  let _ ← expectMark .colon
  let ty ← bounded typeRef
  let directives ← bounded directiveUses
  return ⟨name, text, args, ty, directives, position⟩

def enumValue : Reader EnumValue := do
  let text ← description
  let (name, position) ← expectName
  if reservedEnumValues.contains name then throw (position, .reservedEnumValue name)
  else
    let directives ← bounded directiveUses
    return ⟨name, text, directives, position⟩

/-! ## Definitions -/

/-- A bare name that may be an interface is next. -/
def isBareName : Reader Bool := do
  match (← look).kind with
  | .name name =>
    if definitionKeywords.contains name then return false
    else return (← lookAhead 1).kind != .punct .colon
  | _ => return false

def moreInterfaces : Nat → Reader (List String)
  | 0 => unfinished
  | rounds + 1 => do
    if ← eatMark .ampersand then
      let (name, _) ← round expectName
      return name :: (← moreInterfaces rounds)
    else if ← isBareName then
      let (name, _) ← round expectName
      return name :: (← moreInterfaces rounds)
    else return []

def implements : Reader (List String) := do
  if ← eatKeyword "implements" then
    let _ ← eatMark .ampersand
    let (name, _) ← expectName
    return name :: (← bounded moreInterfaces)
  else return []

def operationOf (word : String) (position : Position) : Reader Operation :=
  match word with
  | "query" => return .query
  | "mutation" => return .mutation
  | "subscription" => return .subscription
  | _ => throw (position, .unknownOperation word)

def operationType : Reader OperationType := do
  let (word, position) ← expectName
  let operation ← operationOf word position
  let _ ← expectMark .colon
  let (typeName, _) ← expectName
  return ⟨operation, typeName, position⟩

/-- The braces of a schema, which are asked for where it is no extension. -/
def operationTypes (extension : Bool) : Reader (List OperationType) := do
  if (← isNext (.punct .braceOpen)) || !extension then
    let _ ← expectMark .braceOpen
    bounded (itemsUntil .braceClose operationType)
  else return []

def schemaDef (description : Option String) (extension : Bool) : Reader SchemaDef := do
  let position ← expectKeyword "schema"
  let directives ← bounded directiveUses
  let operations ← operationTypes extension
  return ⟨description, extension, directives, operations, position⟩

def unionMember : Reader String := return (← expectName).1

def unionMembers : Reader (List String) := do
  if ← eatMark .equals then
    let _ ← eatMark .pipe
    bounded (barSeparated unionMember)
  else return []

def typeBody (keyword : String) (place : Position) : Reader (List DirectiveUse × TypeKind) :=
  match keyword with
  | "scalar" => return (← bounded directiveUses, .scalar)
  | "type" | "interface" => do
    let interfaces ← implements
    let directives ← bounded directiveUses
    let fields ← optionalBlock .braceOpen .braceClose field
    let kind := if keyword = "type" then TypeKind.object else .interface
    return (directives, kind interfaces fields)
  | "union" => do
    let directives ← bounded directiveUses
    let members ← unionMembers
    return (directives, .union members)
  | "enum" => do
    let directives ← bounded directiveUses
    let values ← optionalBlock .braceOpen .braceClose enumValue
    return (directives, .enum values)
  | "input" => do
    let directives ← bounded directiveUses
    let fields ← optionalBlock .braceOpen .braceClose inputValue
    return (directives, .inputObject fields)
  | _ => throw (place, .notTypeKeyword keyword)

def typeDef (description : Option String) : Reader TypeDef := do
  let (keyword, position) ← expectName
  let (name, _) ← expectName
  let (directives, kind) ← typeBody keyword position
  return ⟨name, description, directives, kind, position⟩

def directiveLocation : Reader String := do
  let (name, position) ← expectName
  if directiveLocations.contains name then return name
  else throw (position, .unknownLocation name)

def directiveDef (description : Option String) : Reader DirectiveDef := do
  let position ← expectKeyword "directive"
  let _ ← expectMark .atSign
  let (name, _) ← expectName
  let args ← optionalBlock .parenOpen .parenClose inputValue
  let repeats ← eatKeyword "repeatable"
  let _ ← expectKeyword "on"
  let _ ← eatMark .pipe
  let locations ← bounded (barSeparated directiveLocation)
  return ⟨name, description, args, repeats, locations, position⟩

def extension : Reader Definition := do
  if ← isNext (.name "schema") then return .schema (← schemaDef none true)
  else return .extend (← typeDef none)

/-- The definition that begins with a word. -/
def definitionFrom (text : Option String) (word : String) : Reader Definition :=
  match word with
  | "schema" => return .schema (← schemaDef text false)
  | "scalar" | "type" | "interface" | "union" | "enum" | "input" => return .type (← typeDef text)
  | "directive" => return .directive (← directiveDef text)
  | "extend" => do
    if text.isSome then throw ((← look).position, .describedExtension)
    else
      let _ ← advance
      extension
  | _ => unexpected .definition

def definition : Reader Definition := do
  let text ← description
  match (← look).kind with
  | .name word => definitionFrom text word
  | _ => unexpected .definition

def definitions : Nat → Reader (List Definition)
  | 0 => unfinished
  | rounds + 1 => do
    if ← atEnd then return []
    else
      let first ← round definition
      return first :: (← definitions rounds)

end Reader

end SchemaCompiler.Grammar
