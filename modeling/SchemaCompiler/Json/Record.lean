import SchemaCompiler.Json.Fault

/-!
From JSON values to typed values.

A record is an object with known members, or an array with their values in order. Members that the
record does not know are passed over, and the first fault in the order of the value is the answer.
-/

namespace SchemaCompiler.Json

abbrev Decoded (α : Type) := Except ShapeFault α

def wrongType {α : Type} (expected : String) (j : Json) : Decoded α :=
  .error (.wrongType j.found expected)

/-! ## Single values -/

def asString : Json → Decoded String
  | .string s => .ok s
  | j => wrongType "a string" j

def asBoolean : Json → Decoded Bool
  | .boolean b => .ok b
  | j => wrongType "a boolean" j

def asUInt32 : Json → Decoded UInt32
  | .number (.integer n) =>
    if 0 ≤ n ∧ n < 0x100000000 then .ok n.toNat.toUInt32
    else .error (.wrongValue (.number (.integer n)) "u32")
  | j => wrongType "u32" j

/-- `null` stands for a missing value. -/
def asOptional {α : Type} (decode : Json → Decoded α) : Json → Decoded (Option α)
  | .null => .ok none
  | j => (decode j).map some

def asList {α : Type} (decode : Json → Decoded α) : Json → Decoded (List α)
  | .array items => items.mapM decode
  | j => wrongType "a sequence" j

/-- How a count of elements is named. -/
def elements (n : Nat) : String :=
  if n = 1 then "1 element in sequence" else toString n ++ " elements in sequence"

/-- An array has no more items than were read. -/
def noneLeft (read : Nat) (left : List Json) : Decoded Unit :=
  if left.isEmpty then .ok () else .error (.wrongLength (read + left.length) (elements read))

/-! ## Records -/

/-- How a record written as an array is named. -/
def recordLength (name : String) (count : Nat) : String :=
  name ++ " with " ++ toString count ++ (if count = 1 then " element" else " elements")

/-- Known members. `σ` holds the values met so far and `α` the complete ones. -/
structure Slots (σ α : Type) where
  start : σ
  /-- Stores a member's value, unless the name is unknown. -/
  put : σ → String → Json → Option (Decoded σ)
  /-- The members of an object once all were met. -/
  complete : σ → Decoded α
  /-- The values at the front of an array, of which `index` were read before. -/
  inOrder : (expected : String) → (index : Nat) → List Json → Decoded (α × Nat × List Json)

namespace Slots

/-- A member; `absent` is its value when it is missing. -/
def slot {α : Type} (name : String) (decode : Json → Decoded α) (absent : Option α) :
    Slots (Option α) α where
  start := none
  put met other j :=
    if other = name then
      some (if met.isSome then .error (.duplicateField name) else (decode j).map some)
    else none
  complete met :=
    match met, absent with
    | some a, _ => .ok a
    | none, some a => .ok a
    | none, none => .error (.missingField name)
  inOrder expected index
    | j :: rest => do return (← decode j, index + 1, rest)
    | [] =>
      match absent with
      | some a => .ok (a, index, [])
      | none => .error (.wrongLength index expected)

def required {α : Type} (name : String) (decode : Json → Decoded α) : Slots (Option α) α :=
  slot name decode none

def optional {α : Type} (name : String) (decode : Json → Decoded α) (absent : α) :
    Slots (Option α) α :=
  slot name decode (some absent)

def pair {σ τ α β : Type} (left : Slots σ α) (right : Slots τ β) : Slots (σ × τ) (α × β) where
  start := (left.start, right.start)
  put met name j :=
    match left.put met.1 name j with
    | some result => some (result.map (·, met.2))
    | none => (right.put met.2 name j).map fun result => result.map (met.1, ·)
  complete met := do return (← left.complete met.1, ← right.complete met.2)
  inOrder expected index items := do
    let (a, index, items) ← left.inOrder expected index items
    let (b, index, items) ← right.inOrder expected index items
    return ((a, b), index, items)

/-- Stores the known members in order. -/
def putAll {σ α : Type} (slots : Slots σ α) (met : σ) : List (String × Json) → Decoded σ
  | [] => .ok met
  | (name, j) :: members =>
    match slots.put met name j with
    | some result => do slots.putAll (← result) members
    | none => slots.putAll met members

/-- Members that all have to be known; `names` are the known ones. -/
def decodeOnly {σ α : Type} (slots : Slots σ α) (names : List String)
    (members : List (String × Json)) : Decoded α := do
  let put (met : σ) (member : String × Json) : Decoded σ :=
    match slots.put met member.1 member.2 with
    | some result => result
    | none => .error (.unknownField member.1 names)
  slots.complete (← members.foldlM put slots.start)

/-- A whole array: the `count` members in order and nothing else. -/
def ofItems {σ α : Type} (slots : Slots σ α) (name : String) (count : Nat) (items : List Json) :
    Decoded α := do
  let (a, read, left) ← slots.inOrder (recordLength name count) 0 items
  noneLeft read left
  return a

/-- A record in either form; `name` is how a message calls it. -/
def decode {σ α : Type} (slots : Slots σ α) (name : String) (count : Nat) : Json → Decoded α
  | .object members => do slots.complete (← slots.putAll slots.start members)
  | .array items => slots.ofItems name count items
  | j => wrongType name j

end Slots

/-! ## Variants -/

/-- A variant by its name alone, or with a value as the only member of an object. -/
def asVariant : Json → Decoded (String × Option Json)
  | .string name => .ok (name, none)
  | .object [(name, j)] => .ok (name, some j)
  | .object _ => .error (.wrongValue .map "map with a single key")
  | j => wrongType "string or map" j

/-- The variant of a given name. -/
def pickVariant {α : Type} (variants : List (String × α)) (name : String) : Decoded α :=
  match variants.lookup name with
  | some a => .ok a
  | none => .error (.unknownVariant name (variants.map (·.1)))

/-- A variant without a value carries nothing, `null` or an empty object. -/
def noPayload : Option Json → Decoded Unit
  | none | some .null | some (.object []) => .ok ()
  | some j => wrongType "unit" j

def payload : Option Json → Decoded Json
  | some j => .ok j
  | none => .error (.wrongType .unitVariant "newtype variant")

/-- A variant that carries nothing. -/
def asUnitVariant {α : Type} (variants : List (String × α)) (j : Json) : Decoded α := do
  let (name, content) ← asVariant j
  let a ← pickVariant variants name
  noPayload content
  return a

/-- Takes the member `tag` out of an object. -/
def takeTag {τ : Type} (tag : String) (decode : Json → Decoded τ) :
    (met : Option τ) → (others : List (String × Json)) → List (String × Json) →
    Decoded (τ × List (String × Json))
  | some t, others, [] => .ok (t, others.reverse)
  | none, _, [] => .error (.missingField tag)
  | met, others, (name, j) :: members =>
    if name = tag then
      if met.isSome then .error (.duplicateField tag)
      else do takeTag tag decode (some (← decode j)) others members
    else takeTag tag decode met ((name, j) :: others) members

/-- A value whose member `tag`, or whose first item, tells how to read the rest. -/
def asTagged {τ : Type} (tag expected : String) (decode : Json → Decoded τ) :
    Json → Decoded (τ × Json)
  | .object members => do
    let (t, others) ← takeTag tag decode none [] members
    return (t, .object others)
  | .array [] => .error (.missingField tag)
  | .array (j :: items) => do return (← decode j, .array items)
  | j => wrongType expected j

end SchemaCompiler.Json
