/-!
Shell scripts: the small part of the shell language that plugin scripts are written in.

A script is a list of chains of pipelines of commands. A command has words and redirections; words
are made of text and variables.
-/

namespace SchemaCompiler.Shell

inductive Part where
  | text (text : String)
  | variable (name : String)
deriving DecidableEq, Repr

structure Word where
  parts : List Part
  /-- Whether some of it stands between quotes, so that it counts even if it is empty. -/
  quoted : Bool
deriving DecidableEq, Repr

inductive Direction where
  | input
  | output
  | append
  /-- To where another descriptor leads. -/
  | same
deriving DecidableEq, Repr

structure Redirection where
  descriptor : Nat
  direction : Direction
  target : Word
deriving DecidableEq, Repr

structure Command where
  /-- The line of its last word. -/
  line : Nat
  assignments : List (String × Word)
  words : List Word
  redirections : List Redirection
deriving DecidableEq, Repr

/-- On what a pipeline of a chain waits. -/
inductive Condition where
  | always
  | success
  | failure
deriving DecidableEq, Repr

/-- Pipelines of which each waits on the status of those before it. -/
structure Chain where
  pipelines : List (Condition × List Command)
  background : Bool
deriving DecidableEq, Repr

/-! ## Tokens -/

inductive Token where
  | word (line : Nat) (word : Word)
  | redirect (descriptor : Nat) (direction : Direction)
  | pipe
  | and
  | or
  | background
  | separator
deriving DecidableEq, Repr

/-- What the characters being read belong to. -/
inductive Mode where
  | plain
  | single
  | double
  | comment
  /-- Something already taken account of, of which so many characters are left. -/
  | skip (left : Nat) (inDouble : Bool)
deriving DecidableEq, Repr

namespace Word

def empty : Word := ⟨[], false⟩

/-- Adds a character at the end. -/
def push (w : Option Word) (c : Char) : Option Word :=
  let w := w.getD empty
  match w.parts.reverse with
  | .text text :: before => some { w with parts := before.reverse ++ [.text (text.push c)] }
  | _ => some { w with parts := w.parts ++ [.text c.toString] }

def pushVariable (w : Option Word) (name : String) : Option Word :=
  let w := w.getD empty
  some { w with parts := w.parts ++ [.variable name] }

def quote (w : Option Word) : Option Word := some { w.getD empty with quoted := true }

/-- The digit that a word in front of a redirection consists of. -/
def descriptor? (w : Option Word) : Option Nat :=
  match w with
  | some ⟨[.text text], false⟩ => if text.length = 1 then text.toNat? else none
  | _ => none

end Word

def isNameChar (c : Char) : Bool := c.isAlphanum || c == '_'

def isSpecialName (c : Char) : Bool := c == '$' || c == '!' || c == '?' || c == '#' || c.isDigit

/-- The variable behind a dollar sign, with the number of characters it takes. -/
def variableName (rest : List Char) : Option (String × Nat) :=
  match rest with
  | [] => none
  | '{' :: inner =>
    let name := inner.takeWhile (· ≠ '}')
    some (String.ofList name, name.length + 2)
  | c :: _ =>
    let name := rest.takeWhile isNameChar
    if isSpecialName c then some (c.toString, 1)
    else if name.isEmpty then none
    else some (String.ofList name, name.length)

def wordTokens (line : Nat) (word : Option Word) : List Token := (word.map (.word line)).toList

/-- A redirection, with the word in front of it unless that is its descriptor. -/
def redirectTokens (line : Nat) (word : Option Word) (descriptor : Nat) (direction : Direction) :
    List Token :=
  match Word.descriptor? word with
  | some d => [.redirect d direction]
  | none => wordTokens line word ++ [.redirect descriptor direction]

/-- What one character of a script does, given what follows it. -/
structure Step where
  tokens : List Token
  line : Nat
  mode : Mode
  word : Option Word

/-- Skips characters already taken account of. -/
def skipping (count : Nat) (inDouble : Bool) : Mode :=
  match count, inDouble with
  | 0, true => .double
  | 0, false => .plain
  | _, _ => .skip count inDouble

/-- A dollar sign. -/
def stepVariable (line : Nat) (word : Option Word) (inDouble : Bool) (rest : List Char) : Step :=
  match variableName rest with
  | some (name, count) => ⟨[], line, skipping count inDouble, Word.pushVariable word name⟩
  | none => ⟨[], line, skipping 0 inDouble, Word.push word '$'⟩

/-- A character between double quotes. -/
def stepDouble (line : Nat) (word : Option Word) (c : Char) (rest : List Char) : Step :=
  match c, rest with
  | '"', _ => ⟨[], line, .plain, word⟩
  | '\\', '\n' :: _ => ⟨[], line + 1, .skip 1 true, word⟩
  | '\\', d :: _ =>
    if d = '"' ∨ d = '\\' ∨ d = '$' then ⟨[], line, .skip 1 true, Word.push word d⟩
    else ⟨[], line, .double, Word.push word c⟩
  | '$', _ => stepVariable line word true rest
  | _, _ => ⟨[], if c = '\n' then line + 1 else line, .double, Word.push word c⟩

/-- A character outside quotes. -/
def stepPlain (line : Nat) (word : Option Word) (c : Char) (rest : List Char) : Step :=
  let before := wordTokens line word
  let ends (token : Token) (skipped : Nat) : Step :=
    ⟨before ++ [token], line, skipping skipped false, none⟩
  let redirects (descriptor : Nat) (direction : Direction) (skipped : Nat) : Step :=
    ⟨redirectTokens line word descriptor direction, line, skipping skipped false, none⟩
  match c, rest with
  | '\n', _ => ⟨before ++ [.separator], line + 1, .plain, none⟩
  | ';', _ => ends .separator 0
  | ' ', _ | '\t', _ => ⟨before, line, .plain, none⟩
  | '&', '&' :: _ => ends .and 1
  | '&', _ => ends .background 0
  | '|', '|' :: _ => ends .or 1
  | '|', _ => ends .pipe 0
  | '>', '>' :: _ => redirects 1 .append 1
  | '>', '&' :: _ => redirects 1 .same 1
  | '>', _ => redirects 1 .output 0
  | '<', _ => redirects 0 .input 0
  | '\'', _ => ⟨[], line, .single, Word.quote word⟩
  | '"', _ => ⟨[], line, .double, Word.quote word⟩
  | '\\', '\n' :: _ => ⟨[], line + 1, .skip 1 false, word⟩
  | '\\', d :: _ => ⟨[], line, .skip 1 false, Word.quote (Word.push word d)⟩
  | '$', _ => stepVariable line word false rest
  | '#', _ =>
    if word.isNone then ⟨[], line, .comment, none⟩ else ⟨[], line, .plain, Word.push word c⟩
  | _, _ => ⟨[], line, .plain, Word.push word c⟩

def step (line : Nat) (mode : Mode) (word : Option Word) (c : Char) (rest : List Char) : Step :=
  match mode with
  | .skip left inDouble => ⟨[], line, skipping (left - 1) inDouble, word⟩
  | .comment =>
    if c = '\n' then ⟨[.separator], line + 1, .plain, none⟩ else ⟨[], line, .comment, none⟩
  | .single =>
    if c = '\'' then ⟨[], line, .plain, word⟩
    else ⟨[], if c = '\n' then line + 1 else line, .single, Word.push word c⟩
  | .double => stepDouble line word c rest
  | .plain => stepPlain line word c rest

/-- The tokens of a script, where `word` has been read so far. -/
def tokens (line : Nat) (mode : Mode) (word : Option Word) : List Char → List Token
  | [] => wordTokens line word
  | c :: rest =>
    let s := step line mode word c rest
    s.tokens ++ tokens s.line s.mode s.word rest

/-! ## Commands -/

def Command.empty : Command := ⟨0, [], [], []⟩

def Command.isEmpty (c : Command) : Bool :=
  c.assignments.isEmpty && c.words.isEmpty && c.redirections.isEmpty

/-- The variable that a word in front of a command sets. -/
def assignment? (w : Word) : Option (String × Word) :=
  match w.parts with
  | .text text :: parts =>
    let name := text.toList.takeWhile isNameChar
    match text.toList.drop name.length with
    | '=' :: value =>
      if name.isEmpty ∨ (name.head?.any Char.isDigit) then none
      else some (String.ofList name, { w with parts := .text (String.ofList value) :: parts })
    | _ => none
  | _ => none

/-- What has been read of a script. -/
structure Draft where
  chains : List Chain
  pipelines : List (Condition × List Command)
  condition : Condition
  commands : List Command
  command : Command
  redirect : Option (Nat × Direction)

namespace Draft

def start : Draft := ⟨[], [], .always, [], .empty, none⟩

def endCommand (d : Draft) : Draft :=
  if d.command.isEmpty then d
  else { d with commands := d.commands ++ [d.command], command := .empty }

def endPipeline (d : Draft) (next : Condition) : Draft :=
  let d := d.endCommand
  if d.commands.isEmpty then d
  else
    { d with
      pipelines := d.pipelines ++ [(d.condition, d.commands)], commands := [], condition := next }

def endChain (d : Draft) (background : Bool) : Draft :=
  let d := d.endPipeline .always
  if d.pipelines.isEmpty then d
  else { d with chains := d.chains ++ [⟨d.pipelines, background⟩], pipelines := [],
                condition := .always }

def word (d : Draft) (line : Nat) (w : Word) : Draft :=
  let c := d.command
  match d.redirect with
  | some (descriptor, direction) =>
    { d with
      command := { c with line, redirections := c.redirections ++ [⟨descriptor, direction, w⟩] }
      redirect := none }
  | none =>
    match if c.words.isEmpty then assignment? w else none with
    | some assignment =>
      { d with command := { c with line, assignments := c.assignments ++ [assignment] } }
    | none => { d with command := { c with line, words := c.words ++ [w] } }

def token (d : Draft) : Token → Draft
  | .word line w => d.word line w
  | .redirect descriptor direction => { d with redirect := some (descriptor, direction) }
  | .pipe => d.endCommand
  | .and => d.endPipeline .success
  | .or => d.endPipeline .failure
  | .background => d.endChain true
  | .separator => d.endChain false

end Draft

/-- The chains of a script. -/
def parse (script : String) : List Chain :=
  (((tokens 1 .plain none script.toList).foldl Draft.token Draft.start).endChain false).chains

end SchemaCompiler.Shell
