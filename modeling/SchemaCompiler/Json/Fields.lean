import SchemaCompiler.Json.Reader
import SchemaCompiler.Json.Record

/-!
Typed values read straight from a text.

Here a fault has a place. A value of the wrong type is placed behind it, or in front of it when it
is a container; a fault of a container's own shape is placed where the end of that container was
found.
-/

namespace SchemaCompiler.Json

namespace Reader

/-- A fault of the shape that the container around it will place. -/
def shapeFault {α : Type} (fault : ShapeFault) (left : Bytes) : Except Stop α :=
  .error ⟨.shape fault, left, false⟩

/-- The value at the front is not the expected one. -/
def mismatch {α : Type} (expected : String) (bytes : Bytes) : Except Stop α :=
  let wrong (found : Found) (left : Bytes) : Except Stop α :=
    .error ⟨.shape (.wrongType found expected), left, true⟩
  match skipBlanks bytes with
  | 91 :: rest => wrong .sequence (91 :: rest)
  | 123 :: rest => wrong .map (123 :: rest)
  | bytes => do
    let (j, rest) ← value 0 bytes
    wrong j.found rest

def typedString (expected : String) (bytes : Bytes) : Except Stop (Reading String) :=
  match skipBlanks bytes with
  | 34 :: rest => string rest
  | bytes => mismatch expected bytes

def asString : Bytes → Except Stop (Reading String) := typedString "a string"

/-- A string that `decode` takes apart. -/
def decoded {α : Type} (decode : String → Decoded α) (bytes : Bytes) :
    Except Stop (Reading α) := do
  let (s, rest) ← asString bytes
  match decode s with
  | .ok a => return (a, rest)
  | .error fault => shapeFault fault rest

/-- A container of the text: `depth` tells how many more may be opened inside it. -/
def opened {α : Type} (depth : Nat) (rest : Bytes) (close : Bytes → Except Stop Unit × Bytes)
    (inside : Nat → Bytes → Except Stop (Reading α)) : Except Stop (Reading α) :=
  match depth with
  | 0 => failAt .tooDeep rest
  | depth + 1 => finish close (inside depth rest)

def asList {α : Type} (item : Nat → Bytes → Except Stop (Reading α)) (depth : Nat)
    (bytes : Bytes) : Except Stop (Reading (List α)) :=
  match skipBlanks bytes with
  | 91 :: rest =>
    opened depth rest closeList fun depth rest => items (item depth) (rest.length + 1) true rest
  | bytes => mismatch "a sequence" bytes

end Reader

open Reader (Reading)

/-! ## Records -/

/-- Known members of a record in a text. `σ` holds the values met so far and `α` the complete
ones. -/
structure Fields (σ α : Type) where
  start : σ
  /-- Reads and stores the value of a member behind its name, unless the name is unknown. -/
  put : σ → String → Option (Bytes → Except Stop (Reading σ))
  complete : σ → Decoded α
  /-- Reads the values from a list, of which `index` items were read before. -/
  inOrder : (expected : String) → (index : Nat) → Bytes → Except Stop (Reading (α × Nat))

namespace Fields

/-- A member with its names, the first of which is its own; `absent` is its value when it is
missing. -/
def field {α : Type} (name : String) (aliases : List String)
    (read : Bytes → Except Stop (Reading α)) (absent : Option α) : Fields (Option α) α where
  start := none
  put met other :=
    if other = name ∨ aliases.contains other then
      some fun bytes =>
        if met.isSome then Reader.shapeFault (.duplicateField name) bytes
        else do
          let rest ← Reader.colon bytes
          let (a, rest) ← read rest
          return (some a, rest)
    else none
  complete met :=
    match met, absent with
    | some a, _ => .ok a
    | none, some a => .ok a
    | none, none => .error (.missingField name)
  inOrder expected index bytes := do
    let (more, rest) ← Reader.nextItem (index = 0) bytes
    if more then
      let (a, rest) ← read rest
      return ((a, index + 1), rest)
    else
      match absent with
      | some a => return ((a, index), rest)
      | none => Reader.shapeFault (.wrongLength index expected) rest

def required {α : Type} (name : String) (read : Bytes → Except Stop (Reading α)) :
    Fields (Option α) α :=
  field name [] read none

def optional {α : Type} (name : String) (read : Bytes → Except Stop (Reading α)) (absent : α) :
    Fields (Option α) α :=
  field name [] read (some absent)

def pair {σ τ α β : Type} (left : Fields σ α) (right : Fields τ β) : Fields (σ × τ) (α × β) where
  start := (left.start, right.start)
  put met name :=
    match left.put met.1 name with
    | some read => some fun bytes => do
      let (s, rest) ← read bytes
      return ((s, met.2), rest)
    | none => (right.put met.2 name).map fun read bytes => do
      let (t, rest) ← read bytes
      return ((met.1, t), rest)
  complete met := do return (← left.complete met.1, ← right.complete met.2)
  inOrder expected index bytes := do
    let ((a, index), rest) ← left.inOrder expected index bytes
    let ((b, index), rest) ← right.inOrder expected index rest
    return (((a, b), index), rest)

/-- A member behind its name; an unknown one is passed over. -/
def member {σ α : Type} (fields : Fields σ α) (met : σ) (name : String) (bytes : Bytes) :
    Except Stop (Reading σ) :=
  match fields.put met name with
  | some read => read bytes
  | none => do
    let rest ← Reader.colon bytes
    let rest ← Reader.skip rest
    return (met, rest)

/-- The members of an object behind its brace. -/
def ofObject {σ α : Type} (fields : Fields σ α) (bytes : Bytes) : Except Stop (Reading α) := do
  let (met, rest) ← Reader.members fields.member (bytes.length + 1) true fields.start bytes
  match fields.complete met with
  | .ok a => return (a, rest)
  | .error fault => Reader.shapeFault fault rest

/-- The values of a list behind its bracket. -/
def ofList {σ α : Type} (fields : Fields σ α) (name : String) (count : Nat) (bytes : Bytes) :
    Except Stop (Reading α) := do
  let ((a, _), rest) ← fields.inOrder (recordLength name count) 0 bytes
  return (a, rest)

/-- A record in either form; `fields` gets the depth that is left inside it. -/
def read {σ α : Type} (fields : Nat → Fields σ α) (name : String) (count : Nat) (depth : Nat)
    (bytes : Bytes) : Except Stop (Reading α) :=
  match Reader.skipBlanks bytes with
  | 91 :: rest =>
    Reader.opened depth rest Reader.closeList fun depth => (fields depth).ofList name count
  | 123 :: rest =>
    Reader.opened depth rest Reader.closeObject fun depth => (fields depth).ofObject
  | bytes => Reader.mismatch name bytes

end Fields

/-! ## Tagged values -/

namespace Reader

/-- The members of an object behind its brace, with the member `tag` apart. -/
def taggedMembers {τ : Type} (tag : String) (decode : Bytes → Except Stop (Reading τ))
    (depth : Nat) (bytes : Bytes) : Except Stop (Reading (τ × Json)) := do
  let member (met : Option τ × List (String × Json)) (name : String) (bytes : Bytes) :
      Except Stop (Reading (Option τ × List (String × Json))) :=
    if name = tag then
      if met.1.isSome then shapeFault (.duplicateField tag) bytes
      else do
        let rest ← colon bytes
        let (t, rest) ← decode rest
        return ((some t, met.2), rest)
    else do
      let rest ← colon bytes
      let (j, rest) ← value depth rest
      return ((met.1, (name, j) :: met.2), rest)
  let ((t, others), rest) ← members member (bytes.length + 1) true (none, []) bytes
  match t with
  | some t => return ((t, .object others.reverse), rest)
  | none => shapeFault (.missingField tag) rest

/-- The items of a list behind its bracket, the first of which is the tag. -/
def taggedItems {τ : Type} (tag : String) (decode : Bytes → Except Stop (Reading τ))
    (depth : Nat) (bytes : Bytes) : Except Stop (Reading (τ × Json)) := do
  let (more, rest) ← nextItem true bytes
  if more then
    let (t, rest) ← decode rest
    let (others, rest) ← items (value depth) (rest.length + 1) false rest
    return ((t, .array others), rest)
  else shapeFault (.missingField tag) rest

/-- A value whose member `tag`, or whose first item, tells how to read the rest. -/
def asTagged {τ : Type} (tag expected : String) (decode : Bytes → Except Stop (Reading τ))
    (depth : Nat) (bytes : Bytes) : Except Stop (Reading (τ × Json)) :=
  match skipBlanks bytes with
  | 91 :: rest => opened depth rest closeList (taggedItems tag decode)
  | 123 :: rest => opened depth rest closeObject (taggedMembers tag decode)
  | bytes => mismatch expected bytes

/-- The tag of a value, one of `variants`. -/
def asVariantName {τ : Type} (variants : List (String × τ)) (bytes : Bytes) :
    Except Stop (Reading τ) := do
  let (name, rest) ← typedString "variant identifier" bytes
  match pickVariant variants name with
  | .ok t => return (t, rest)
  | .error fault => .error ⟨.shape fault, rest, true⟩

end Reader

/-- A whole text read by `item`. -/
def readAs {α : Type} (item : Nat → Bytes → Except Stop (Reading α)) (bytes : Bytes) :
    Except Stop α := do
  let (a, rest) ← item Reader.maxDepth bytes
  Reader.endOfText rest
  return a

end SchemaCompiler.Json
