import SchemaCompiler.Proofs.Grammar.Reading
import SchemaCompiler.Proofs.Source.Lexemes

/-!
What is still to be read.

The grammar as a stack of goals, the next one on top. The kind of the next token alone decides what
becomes of the stack: the goal on top reads the token and leaves goals of its own, or it is given up
and the one below decides, or the token is refused. So a run of the stack sees of the tokens no more
than it has read, and it stops at the first token that it cannot read.
-/

namespace SchemaCompiler.Grammar

/-! ## Goals -/

/-- One token that has to be next. -/
inductive Terminal where
  | mark (mark : Punctuator)
  | name
  /-- A name that does not read as a constant of another kind. -/
  | enumName
  | operation
  | location
  /-- The word in front of the places of a directive. -/
  | on

def Terminal.admits : Terminal → TokenKind → Bool
  | mark m, .punct m' => m' = m
  | name, .name _ => true
  | enumName, .name word => !reservedEnumValues.contains word
  | operation, .name word => ["query", "mutation", "subscription"].contains word
  | location, .name word => directiveLocations.contains word
  | on, .name word => word = "on"
  | _, _ => false

/-- The marks around items. -/
inductive Brackets where
  | round
  | square
  | curly

def Brackets.opening : Brackets → Punctuator
  | round => .parenOpen
  | square => .bracketOpen
  | curly => .braceOpen

def Brackets.closing : Brackets → Punctuator
  | round => .parenClose
  | square => .bracketClose
  | curly => .braceClose

/-- What stands between brackets, any number of times. -/
inductive Item where
  | value
  /-- An argument, or an entry of an object. -/
  | entry
  | inputValue
  | field
  | enumValue
  | operation

/-- What has to stand somewhere. -/
inductive Part where
  | token (terminal : Terminal)
  /-- The token, perhaps behind a description. -/
  | labelled (terminal : Terminal)
  | typeRef
  | value
  /-- The word `on`, perhaps behind `repeatable`. -/
  | repeatableOn
  /-- A definition behind its description. -/
  | described
  /-- A definition behind the word `extend`. -/
  | extension

/-- What may be left out. -/
inductive Extra where
  | mark (mark : Punctuator)
  | block (brackets : Brackets) (item : Item)
  | default
  | members
  | uses
  /-- Further tokens, each behind a bar. -/
  | bars (terminal : Terminal)
  | implements

inductive Goal where
  | need (part : Part)
  | optional (extra : Extra)
  /-- Items and the closing bracket. -/
  | items (brackets : Brackets) (item : Item)
  /-- Further interface names, and whether the last one stands by itself. -/
  | interfaces (bare : Bool)
  /-- Definitions and the end. -/
  | definitions

namespace Goal

abbrev token (terminal : Terminal) : Goal := need (.token terminal)

abbrev mark (mark : Punctuator) : Goal := token (.mark mark)

abbrev name : Goal := token .name

abbrev uses : Goal := optional .uses

end Goal

/-- What an item begins with. -/
def Item.first : Item → Part
  | value => .value
  | entry => .token .name
  | inputValue | field => .labelled .name
  | enumValue => .labelled .enumName
  | operation => .token .operation

def Item.others : Item → List Goal
  | value => []
  | entry => [.mark .colon, .need .value]
  | inputValue => [.mark .colon, .need .typeRef, .optional .default, .uses]
  | field => [.optional (.block .round .inputValue), .mark .colon, .need .typeRef, .uses]
  | enumValue => [.uses]
  | operation => [.mark .colon, .name]

def Item.goals (item : Item) : List Goal := .need item.first :: item.others

/-- What follows the name of a type. -/
def bodyGoals : String → Option (List Goal)
  | "scalar" => some [.uses]
  | "type" | "interface" =>
    some [.optional .implements, .uses, .optional (.block .curly .field)]
  | "union" => some [.uses, .optional .members]
  | "enum" => some [.uses, .optional (.block .curly .enumValue)]
  | "input" => some [.uses, .optional (.block .curly .inputValue)]
  | _ => none

/-- What follows the word that begins a definition. -/
def definitionGoals (word : String) : Option (List Goal) :=
  if word = "schema" then some [.uses, .mark .braceOpen, .items .curly .operation]
  else if word = "directive" then
    some [.mark .atSign, .name, .optional (.block .round .inputValue), .need .repeatableOn,
      .optional (.mark .pipe), .token .location, .optional (.bars .location)]
  else (bodyGoals word).map (.name :: ·)

/-- What follows the word that says what is extended. -/
def extensionGoals (word : String) : Option (List Goal) :=
  if word = "schema" then some [.uses, .optional (.block .curly .operation)]
  else (bodyGoals word).map (.name :: ·)

theorem definitionGoals_eq_none {word : String} (free : word ∉ definitionKeywords) :
    definitionGoals word = none := by
  have other (keyword : String) (known : keyword ∈ definitionKeywords) : word ≠ keyword := by
    rintro rfl
    exact free known
  rw [definitionGoals, if_neg (other _ (by decide)), if_neg (other _ (by decide)), bodyGoals]
  · rfl
  all_goals exact other _ (by decide)

/-! ## Moves -/

/-- What is left of the part behind a first token of the kind. -/
def Part.behind : Part → TokenKind → Option (List Goal)
  | token t, kind => if t.admits kind then some [] else none
  | labelled t, .string _ => some [.token t]
  | labelled t, kind => if t.admits kind then some [] else none
  | typeRef, .name _ => some [.optional (.mark .bang)]
  | typeRef, .punct .bracketOpen =>
    some [.need .typeRef, .mark .bracketClose, .optional (.mark .bang)]
  | value, .int _ | value, .float _ | value, .string _ | value, .name _ => some []
  | value, .punct .bracketOpen => some [.items .square .value]
  | value, .punct .braceOpen => some [.items .curly .entry]
  | repeatableOn, .name word =>
    if word = "on" then some [] else if word = "repeatable" then some [.token .on] else none
  | described, .name word => definitionGoals word
  | extension, .name word => extensionGoals word
  | _, _ => none

/-- No part begins with the end or with three dots. -/
theorem Part.behind_unread (part : Part) :
    part.behind .eof = none ∧ part.behind .spread = none := by
  cases part with
  | token t | labelled t => cases t <;> exact ⟨rfl, rfl⟩
  | _ => exact ⟨rfl, rfl⟩

/-- The token that the extra begins with. -/
def Extra.opening : Extra → TokenKind
  | mark m => .punct m
  | block brackets _ => .punct brackets.opening
  | default | members => .punct .equals
  | uses => .punct .atSign
  | bars _ => .punct .pipe
  | implements => .name "implements"

def Extra.behind : Extra → List Goal
  | mark _ => []
  | block brackets item => [.items brackets item]
  | default => [.need .value]
  | members => [.optional (.mark .pipe), .name, .optional (.bars .name)]
  | uses => [.name, .optional (.block .round .entry), .uses]
  | bars t => [.token t, .optional (.bars t)]
  | implements => [.optional (.mark .ampersand), .name, .interfaces false]

/-- The token that is blamed when one is refused. -/
inductive Blame where
  | here
  /-- The one in front of it: a colon shows that the name in front of it is no interface. -/
  | before
deriving DecidableEq

inductive Move where
  | read (goals : List Goal)
  | pass
  | refuse (blame : Blame)

def interfacesMove (bare : Bool) : TokenKind → Move
  | .punct .ampersand => .read [.name, .interfaces false]
  | .punct .colon => if bare then .refuse .before else .pass
  | .name word => if definitionKeywords.contains word then .pass else .read [.interfaces true]
  | _ => .pass

def definitionsMove : TokenKind → Move
  | .eof => .read []
  | .string _ => .read [.need .described, .definitions]
  | .name word =>
    if word = "extend" then .read [.need .extension, .definitions]
    else match definitionGoals word with
      | some goals => .read (goals ++ [.definitions])
      | none => .refuse .here
  | _ => .refuse .here

/-- What the next token does to a goal on top. -/
def Goal.move : Goal → TokenKind → Move
  | need part, kind =>
    match part.behind kind with
    | some goals => .read goals
    | none => .refuse .here
  | optional extra, kind => if kind = extra.opening then .read extra.behind else .pass
  | items brackets item, kind =>
    if kind = .punct brackets.closing then .read []
    else match item.first.behind kind with
      | some goals => .read (goals ++ (item.others ++ [items brackets item]))
      | none => .refuse .here
  | interfaces bare, kind => interfacesMove bare kind
  | definitions, kind => definitionsMove kind

/-- The goals behind the next token. -/
def step : List Goal → TokenKind → Except Blame (List Goal)
  | [], _ => .error .here
  | goal :: goals, kind =>
    match goal.move kind with
    | .read more => .ok (more ++ goals)
    | .pass => step goals kind
    | .refuse blame => .error blame

/-- The goals behind tokens of these kinds. -/
def reach (goals : List Goal) (kinds : List TokenKind) : Except Blame (List Goal) :=
  kinds.foldlM step goals

section

variable {goal : Goal} {goals more : List Goal} {kind : TokenKind} {blame : Blame}

theorem step_read (read : goal.move kind = .read more) :
    step (goal :: goals) kind = .ok (more ++ goals) := by
  rw [step, read]

theorem step_pass (pass : goal.move kind = .pass) :
    step (goal :: goals) kind = step goals kind := by
  rw [step, pass]

theorem step_refuse (refuse : goal.move kind = .refuse blame) :
    step (goal :: goals) kind = .error blame := by
  rw [step, refuse]

theorem reach_append (goals : List Goal) (kinds kinds' : List TokenKind) :
    reach goals (kinds ++ kinds') = reach goals kinds >>= (reach · kinds') :=
  List.foldlM_append

theorem reach_cons (goals : List Goal) (kind : TokenKind) (kinds : List TokenKind) :
    reach goals (kind :: kinds) = step goals kind >>= (reach · kinds) :=
  List.foldlM_cons

theorem reach_snoc {kinds : List TokenKind} {reached : List Goal}
    (front : reach goals kinds = .ok reached) (kind : TokenKind) :
    reach goals (kinds ++ [kind]) = step reached kind := by
  rw [reach_append, front]
  exact bind_pure (step reached kind)

/-- What refuses the front of the tokens refuses the tokens. -/
theorem reach_error_of_begins {kinds kinds' : List TokenKind} (front : kinds <+: kinds')
    (refused : reach goals kinds = .error blame) : reach goals kinds' = .error blame := by
  obtain ⟨rest, rfl⟩ := front
  rw [reach_append, refused]
  rfl

end

end SchemaCompiler.Grammar
