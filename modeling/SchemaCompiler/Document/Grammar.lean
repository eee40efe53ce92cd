import SchemaCompiler.Document
import SchemaCompiler.SourceError

/-!
The grammar of schema documents.

Every production takes the tokens from its first one on and answers with what it read and the
tokens behind it. The type of the answer records that something was read, or at least that nothing
was put back, which is what ends every loop below.
-/

namespace SchemaCompiler.Grammar

/-- A fault and the place of the token it is about. -/
abbrev Failure := Position × SyntaxFault

/-- The tokens behind a production that read at least one. -/
abbrev Behind (ts : List Token) := { rest : List Token // rest.length < ts.length }

/-- The tokens behind a production that may read none. -/
abbrev AtOrBehind (ts : List Token) := { rest : List Token // rest.length ≤ ts.length }

abbrev Parse (α : Type) (ts : List Token) := Except Failure (α × Behind ts)

abbrev ParseOptional (α : Type) (ts : List Token) := Except Failure (α × AtOrBehind ts)

/-! ## Single tokens -/

/-- The next token. A token list ends with the end of the source, so there always is one. -/
def next : List Token → Token
  | [] => ⟨.eof, .start⟩
  | t :: _ => t

def atEnd (ts : List Token) : Bool := (next ts).kind = .eof

def unexpected {α : Type} (expected : Expectation) (ts : List Token) : Except Failure α :=
  .error ((next ts).position, .unexpected expected (next ts).kind)

/-- Reads the mark if it is next. -/
def takeMark? (mark : Punctuator) (ts : List Token) : Option (Position × Behind ts) :=
  match ts with
  | ⟨.punct m, position⟩ :: rest => if m = mark then some (position, ⟨rest, by simp⟩) else none
  | _ => none

/-- Reads the word if it is next. -/
def takeKeyword? (word : String) (ts : List Token) : Option (Position × Behind ts) :=
  match ts with
  | ⟨.name w, position⟩ :: rest => if w = word then some (position, ⟨rest, by simp⟩) else none
  | _ => none

def expectMark (mark : Punctuator) (ts : List Token) : Parse Position ts :=
  match takeMark? mark ts with
  | some found => .ok found
  | none => unexpected (.mark mark) ts

def expectKeyword (word : String) (ts : List Token) : Parse Position ts :=
  match takeKeyword? word ts with
  | some found => .ok found
  | none => unexpected (.keyword word) ts

def expectName (ts : List Token) : Parse (String × Position) ts :=
  match ts with
  | ⟨.name text, position⟩ :: rest => .ok ((text, position), ⟨rest, by simp⟩)
  | _ => unexpected .name ts

/-- Reads the mark or nothing. -/
def skipMark (mark : Punctuator) (ts : List Token) : AtOrBehind ts :=
  match takeMark? mark ts with
  | some (_, ⟨rest, h⟩) => ⟨rest, Nat.le_of_lt h⟩
  | none => ⟨ts, Nat.le_refl _⟩

def description (ts : List Token) : Option String × AtOrBehind ts :=
  match ts with
  | ⟨.string text, _⟩ :: rest => (some text, ⟨rest, by simp⟩)
  | ts => (none, ⟨ts, Nat.le_refl _⟩)

/-! ## Repetition -/

/-- Items up to a closing mark. The bound on what an item is given lets a production call itself
for its items. -/
def itemsUntil {α : Type} (close : Punctuator) (bound : Nat)
    (item : (ts : List Token) → ts.length ≤ bound → Parse α ts)
    (ts : List Token) (fits : ts.length ≤ bound) : Parse (List α) ts :=
  match takeMark? close ts with
  | some (_, behind) => .ok ([], behind)
  | none => do
    let ⟨first, rest, h⟩ ← item ts fits
    let ⟨more, rest', h'⟩ ← itemsUntil close bound item rest (by omega)
    return (first :: more, ⟨rest', by omega⟩)
termination_by ts.length

/-- Items between two marks, if the opening one is next. -/
def optionalBlock {α : Type} (openMark close : Punctuator) (item : (ts : List Token) → Parse α ts)
    (ts : List Token) : ParseOptional (List α) ts :=
  match takeMark? openMark ts with
  | some (_, ⟨rest, h⟩) => do
    let ⟨items, rest', h'⟩ ← itemsUntil close rest.length (fun ts _ => item ts) rest (Nat.le_refl _)
    return (items, ⟨rest', by omega⟩)
  | none => .ok ([], ⟨ts, Nat.le_refl _⟩)

/-- One item and then any number that each follow a bar. -/
def barSeparated {α : Type} (item : (ts : List Token) → Parse α ts) (ts : List Token) :
    Parse (List α) ts := do
  let ⟨first, rest, h⟩ ← item ts
  match takeMark? .pipe rest with
  | some (_, ⟨rest, h'⟩) => do
    let ⟨more, rest', h''⟩ ← barSeparated item rest
    return (first :: more, ⟨rest', by omega⟩)
  | none => return ([first], ⟨rest, h⟩)
termination_by ts.length

/-! ## Type references and constants -/

/-- The non-null mark behind a type. -/
def withBang (ts : List Token) (ref : TypeRef) (behind : Behind ts) : TypeRef × Behind ts :=
  match takeMark? .bang behind.val with
  | some (_, ⟨rest, h⟩) => (.nonNull ref, ⟨rest, Nat.lt_trans h behind.property⟩)
  | none => (ref, behind)

def typeRef (ts : List Token) : Parse TypeRef ts :=
  match takeMark? .bracketOpen ts with
  | some (_, ⟨rest, h⟩) => do
    let ⟨inner, rest', h'⟩ ← typeRef rest
    let ⟨_, rest'', h''⟩ ← expectMark .bracketClose rest'
    return withBang ts (.list inner) ⟨rest'', by omega⟩
  | none => do
    let ⟨(name, _), behind⟩ ← expectName ts
    return withBang ts (.named name) behind
termination_by ts.length

/-- What a bare name means as a constant. -/
def nameValue (name : String) : Value :=
  if name = "true" then .boolean true
  else if name = "false" then .boolean false
  else if name = "null" then .null
  else .enum name

def value (ts : List Token) : Parse Value ts :=
  match ts with
  | ⟨.int text, _⟩ :: rest => .ok (.int text, ⟨rest, by simp⟩)
  | ⟨.float text, _⟩ :: rest => .ok (.float text, ⟨rest, by simp⟩)
  | ⟨.string text, _⟩ :: rest => .ok (.string text, ⟨rest, by simp⟩)
  | ⟨.name name, _⟩ :: rest => .ok (nameValue name, ⟨rest, by simp⟩)
  | ⟨.punct .bracketOpen, _⟩ :: rest => do
    let ⟨items, rest', h⟩ ←
      itemsUntil .bracketClose rest.length (fun ts _ => value ts) rest (Nat.le_refl _)
    return (.list items, ⟨rest', by simp only [List.length_cons]; omega⟩)
  | ⟨.punct .braceOpen, _⟩ :: rest => do
    let ⟨entries, rest', h⟩ ←
      itemsUntil .braceClose rest.length
        (fun ts _ => do
          let ⟨(name, _), rest₁, h₁⟩ ← expectName ts
          let ⟨_, rest₂, h₂⟩ ← expectMark .colon rest₁
          let ⟨v, rest₃, h₃⟩ ← value rest₂
          return ((name, v), ⟨rest₃, by omega⟩))
        rest (Nat.le_refl _)
    return (.object entries, ⟨rest', by simp only [List.length_cons]; omega⟩)
  | ⟨.punct .dollar, position⟩ :: _ => .error (position, .variableUse)
  | _ => unexpected .value ts
termination_by ts.length
decreasing_by all_goals simp only [List.length_cons]; omega

/-! ## Directives and arguments -/

def argument (ts : List Token) : Parse Argument ts := do
  let ⟨(name, _), rest₁, h₁⟩ ← expectName ts
  let ⟨_, rest₂, h₂⟩ ← expectMark .colon rest₁
  let ⟨v, rest₃, h₃⟩ ← value rest₂
  return (⟨name, v⟩, ⟨rest₃, by omega⟩)

def directiveUses (ts : List Token) : ParseOptional (List DirectiveUse) ts :=
  match takeMark? .atSign ts with
  | some (position, ⟨rest, h⟩) => do
    let ⟨(name, _), rest₁, h₁⟩ ← expectName rest
    let ⟨args, rest₂, h₂⟩ ← optionalBlock .parenOpen .parenClose argument rest₁
    let ⟨more, rest₃, h₃⟩ ← directiveUses rest₂
    return (⟨name, args, position⟩ :: more, ⟨rest₃, by omega⟩)
  | none => .ok ([], ⟨ts, Nat.le_refl _⟩)
termination_by ts.length

/-- The constant behind an equals sign. -/
def defaultValue (ts : List Token) : ParseOptional (Option Value) ts :=
  match takeMark? .equals ts with
  | some (_, ⟨rest, h⟩) => do
    let ⟨v, rest', h'⟩ ← value rest
    return (some v, ⟨rest', by omega⟩)
  | none => .ok (none, ⟨ts, Nat.le_refl _⟩)

def inputValue (ts : List Token) : Parse InputValue ts := do
  let ⟨text, rest₀, h₀⟩ := description ts
  let ⟨(name, position), rest₁, h₁⟩ ← expectName rest₀
  let ⟨_, rest₂, h₂⟩ ← expectMark .colon rest₁
  let ⟨ty, rest₃, h₃⟩ ← typeRef rest₂
  let ⟨default, rest₄, h₄⟩ ← defaultValue rest₃
  let ⟨directives, rest₅, h₅⟩ ← directiveUses rest₄
  return (⟨name, text, ty, default, directives, position⟩, ⟨rest₅, by omega⟩)

def field (ts : List Token) : Parse Field ts := do
  let ⟨text, rest₀, h₀⟩ := description ts
  let ⟨(name, position), rest₁, h₁⟩ ← expectName rest₀
  let ⟨args, rest₂, h₂⟩ ← optionalBlock .parenOpen .parenClose inputValue rest₁
  let ⟨_, rest₃, h₃⟩ ← expectMark .colon rest₂
  let ⟨ty, rest₄, h₄⟩ ← typeRef rest₃
  let ⟨directives, rest₅, h₅⟩ ← directiveUses rest₄
  return (⟨name, text, args, ty, directives, position⟩, ⟨rest₅, by omega⟩)

/-- Names that read as constants of another kind. -/
def reservedEnumValues : List String := ["true", "false", "null"]

def enumValue (ts : List Token) : Parse EnumValue ts := do
  let ⟨text, rest₀, h₀⟩ := description ts
  let ⟨(name, position), rest₁, h₁⟩ ← expectName rest₀
  if reservedEnumValues.contains name then throw (position, .reservedEnumValue name)
  let ⟨directives, rest₂, h₂⟩ ← directiveUses rest₁
  return (⟨name, text, directives, position⟩, ⟨rest₂, by omega⟩)

/-! ## Definitions -/

def definitionKeywords : List String :=
  ["schema", "scalar", "type", "interface", "union", "enum", "input", "directive", "extend"]

/-- Further interface names: each behind an ampersand or, in the older form, by itself. A bare name
that begins a definition or that a colon follows is not one of them. -/
def moreInterfaces (ts : List Token) : ParseOptional (List String) ts :=
  match ts with
  | ⟨.punct .ampersand, _⟩ :: rest => do
    let ⟨(name, _), rest₁, h₁⟩ ← expectName rest
    let ⟨more, rest₂, h₂⟩ ← moreInterfaces rest₁
    return (name :: more, ⟨rest₂, by simp only [List.length_cons]; omega⟩)
  | ⟨.name name, position⟩ :: rest =>
    if definitionKeywords.contains name || (next rest).kind == .punct .colon then
      .ok ([], ⟨⟨.name name, position⟩ :: rest, Nat.le_refl _⟩)
    else do
      let ⟨more, rest₁, h₁⟩ ← moreInterfaces rest
      return (name :: more, ⟨rest₁, by simp only [List.length_cons]; omega⟩)
  | ts => .ok ([], ⟨ts, Nat.le_refl _⟩)
termination_by ts.length
decreasing_by all_goals simp only [List.length_cons]; omega

def implements (ts : List Token) : ParseOptional (List String) ts :=
  match takeKeyword? "implements" ts with
  | some (_, ⟨rest, h⟩) => do
    let ⟨rest₀, h₀⟩ := skipMark .ampersand rest
    let ⟨(name, _), rest₁, h₁⟩ ← expectName rest₀
    let ⟨more, rest₂, h₂⟩ ← moreInterfaces rest₁
    return (name :: more, ⟨rest₂, by omega⟩)
  | none => .ok ([], ⟨ts, Nat.le_refl _⟩)

def operationType (ts : List Token) : Parse OperationType ts := do
  let ⟨(word, position), rest₁, h₁⟩ ← expectName ts
  let operation ← match word with
    | "query" => .ok Operation.query
    | "mutation" => .ok .mutation
    | "subscription" => .ok .subscription
    | _ => .error (position, .unknownOperation word)
  let ⟨_, rest₂, h₂⟩ ← expectMark .colon rest₁
  let ⟨(typeName, _), rest₃, h₃⟩ ← expectName rest₂
  return (⟨operation, typeName, position⟩, ⟨rest₃, by omega⟩)

/-- The braces of a schema, which only an extension may leave out. -/
def operationTypes (extension : Bool) (ts : List Token) :
    ParseOptional (List OperationType) ts := do
  if extension && (takeMark? .braceOpen ts).isNone then
    return ([], ⟨ts, Nat.le_refl _⟩)
  let ⟨_, rest, h⟩ ← expectMark .braceOpen ts
  let ⟨operations, rest', h'⟩ ←
    itemsUntil .braceClose rest.length (fun ts _ => operationType ts) rest (Nat.le_refl _)
  return (operations, ⟨rest', by omega⟩)

def schemaDef (description : Option String) (extension : Bool) (ts : List Token) :
    Parse SchemaDef ts := do
  let ⟨position, rest₁, h₁⟩ ← expectKeyword "schema" ts
  let ⟨directives, rest₂, h₂⟩ ← directiveUses rest₁
  let ⟨operations, rest₃, h₃⟩ ← operationTypes extension rest₂
  return (⟨description, extension, directives, operations, position⟩, ⟨rest₃, by omega⟩)

def unionMember (ts : List Token) : Parse String ts := do
  let ⟨(name, _), behind⟩ ← expectName ts
  return (name, behind)

/-- The members behind an equals sign, with an optional bar in front. -/
def unionMembers (ts : List Token) : ParseOptional (List String) ts :=
  match takeMark? .equals ts with
  | some (_, ⟨rest, h⟩) => do
    let ⟨rest₀, h₀⟩ := skipMark .pipe rest
    let ⟨members, rest₁, h₁⟩ ← barSeparated unionMember rest₀
    return (members, ⟨rest₁, by omega⟩)
  | none => .ok ([], ⟨ts, Nat.le_refl _⟩)

/-- What follows the name of a type: its directives and its body. -/
def typeBody (keyword : String) (place : Position) (ts : List Token) :
    ParseOptional (List DirectiveUse × TypeKind) ts :=
  match keyword with
  | "scalar" => do
    let ⟨directives, rest⟩ ← directiveUses ts
    return ((directives, .scalar), rest)
  | "type" | "interface" => do
    let ⟨interfaces, rest₁, h₁⟩ ← implements ts
    let ⟨directives, rest₂, h₂⟩ ← directiveUses rest₁
    let ⟨fields, rest₃, h₃⟩ ← optionalBlock .braceOpen .braceClose field rest₂
    let kind := if keyword = "type" then TypeKind.object else .interface
    return ((directives, kind interfaces fields), ⟨rest₃, by omega⟩)
  | "union" => do
    let ⟨directives, rest₁, h₁⟩ ← directiveUses ts
    let ⟨members, rest₂, h₂⟩ ← unionMembers rest₁
    return ((directives, .union members), ⟨rest₂, by omega⟩)
  | "enum" => do
    let ⟨directives, rest₁, h₁⟩ ← directiveUses ts
    let ⟨values, rest₂, h₂⟩ ← optionalBlock .braceOpen .braceClose enumValue rest₁
    return ((directives, .enum values), ⟨rest₂, by omega⟩)
  | "input" => do
    let ⟨directives, rest₁, h₁⟩ ← directiveUses ts
    let ⟨fields, rest₂, h₂⟩ ← optionalBlock .braceOpen .braceClose inputValue rest₁
    return ((directives, .inputObject fields), ⟨rest₂, by omega⟩)
  | _ => .error (place, .notTypeKeyword keyword)

def typeDef (description : Option String) (ts : List Token) : Parse TypeDef ts := do
  let ⟨(keyword, position), rest₁, h₁⟩ ← expectName ts
  let ⟨(name, _), rest₂, h₂⟩ ← expectName rest₁
  let ⟨(directives, kind), rest₃, h₃⟩ ← typeBody keyword position rest₂
  return (⟨name, description, directives, kind, position⟩, ⟨rest₃, by omega⟩)

/-- The places a directive may be applied to. -/
def directiveLocations : List String :=
  ["QUERY", "MUTATION", "SUBSCRIPTION", "FIELD", "FRAGMENT_DEFINITION", "FRAGMENT_SPREAD",
   "INLINE_FRAGMENT", "VARIABLE_DEFINITION", "SCHEMA", "SCALAR", "OBJECT", "FIELD_DEFINITION",
   "ARGUMENT_DEFINITION", "INTERFACE", "UNION", "ENUM", "ENUM_VALUE", "INPUT_OBJECT",
   "INPUT_FIELD_DEFINITION"]

def directiveLocation (ts : List Token) : Parse String ts := do
  let ⟨(name, position), behind⟩ ← expectName ts
  if directiveLocations.contains name then return (name, behind)
  else throw (position, .unknownLocation name)

def repeatable (ts : List Token) : Bool × AtOrBehind ts :=
  match takeKeyword? "repeatable" ts with
  | some (_, ⟨rest, h⟩) => (true, ⟨rest, Nat.le_of_lt h⟩)
  | none => (false, ⟨ts, Nat.le_refl _⟩)

def directiveDef (description : Option String) (ts : List Token) : Parse DirectiveDef ts := do
  let ⟨position, rest₁, h₁⟩ ← expectKeyword "directive" ts
  let ⟨_, rest₂, h₂⟩ ← expectMark .atSign rest₁
  let ⟨(name, _), rest₃, h₃⟩ ← expectName rest₂
  let ⟨args, rest₄, h₄⟩ ← optionalBlock .parenOpen .parenClose inputValue rest₃
  let ⟨repeats, rest₅, h₅⟩ := repeatable rest₄
  let ⟨_, rest₆, h₆⟩ ← expectKeyword "on" rest₅
  let ⟨rest₇, h₇⟩ := skipMark .pipe rest₆
  let ⟨locations, rest₈, h₈⟩ ← barSeparated directiveLocation rest₇
  return (⟨name, description, args, repeats, locations, position⟩, ⟨rest₈, by omega⟩)

/-- What follows the word `extend`. -/
def extension (ts : List Token) : Parse Definition ts :=
  match takeKeyword? "schema" ts with
  | some _ => do
    let ⟨schema, behind⟩ ← schemaDef none true ts
    return (.schema schema, behind)
  | none => do
    let ⟨type, behind⟩ ← typeDef none ts
    return (.extend type, behind)

def definition (ts : List Token) : Parse Definition ts := do
  let ⟨text, rest, h⟩ := description ts
  match (next rest).kind with
  | .name "schema" => do
    let ⟨schema, rest₁, h₁⟩ ← schemaDef text false rest
    return (.schema schema, ⟨rest₁, by omega⟩)
  | .name "scalar" | .name "type" | .name "interface" | .name "union" | .name "enum"
  | .name "input" => do
    let ⟨type, rest₁, h₁⟩ ← typeDef text rest
    return (.type type, ⟨rest₁, by omega⟩)
  | .name "directive" => do
    let ⟨directive, rest₁, h₁⟩ ← directiveDef text rest
    return (.directive directive, ⟨rest₁, by omega⟩)
  | .name "extend" => do
    if text.isSome then throw ((next rest).position, .describedExtension)
    let ⟨_, rest₁, h₁⟩ ← expectKeyword "extend" rest
    let ⟨definition, rest₂, h₂⟩ ← extension rest₁
    return (definition, ⟨rest₂, by omega⟩)
  | _ => unexpected .definition rest

/-- Definitions up to the end of the source. -/
def definitions (ts : List Token) : Except Failure (List Definition) :=
  if atEnd ts then .ok []
  else do
    let ⟨first, rest, _⟩ ← definition ts
    let more ← definitions rest
    return first :: more
termination_by ts.length

end SchemaCompiler.Grammar

namespace SchemaCompiler

/-- The document that a source says, under a given name. -/
def Document.ofSource (name path source : String) : Except SourceError Document :=
  match tokenize source with
  | .error (position, fault) => .error ⟨path, .lexical position fault⟩
  | .ok tokens =>
    match Grammar.definitions tokens with
    | .error (position, fault) => .error ⟨path, .grammar position fault⟩
    | .ok definitions => .ok ⟨name, path, definitions⟩

end SchemaCompiler
