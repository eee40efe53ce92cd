import SchemaCompiler.Document

/-!
Type references and constants as source text.
-/

namespace SchemaCompiler

/-- `[T]` for a list and `T!` for a type without null. -/
def TypeRef.text : TypeRef → String
  | named name => name
  | list inner => "[" ++ inner.text ++ "]"
  | nonNull inner => inner.text ++ "!"

namespace Value

/-- A character inside quotes; only what would end the string or its line is escaped. -/
def escapedChar (c : Char) : String :=
  if c = '"' then "\\\""
  else if c = '\\' then "\\\\"
  else if c = '\n' then "\\n"
  else if c = '\r' then "\\r"
  else if c = '\t' then "\\t"
  else c.toString

def quoted (s : String) : String :=
  "\"" ++ String.join (s.toList.map escapedChar) ++ "\""

mutual

/-- A constant as it is written in a source. -/
def text : Value → String
  | int text | float text => text
  | string value => quoted value
  | boolean value => if value then "true" else "false"
  | null => "null"
  | enum name => name
  | list items => "[" ++ String.intercalate ", " (itemTexts items) ++ "]"
  | object entries => "\x7b" ++ String.intercalate ", " (entryTexts entries) ++ "\x7d"

def itemTexts : List Value → List String
  | [] => []
  | item :: items => item.text :: itemTexts items

def entryTexts : List (String × Value) → List String
  | [] => []
  | (name, value) :: entries => (name ++ ": " ++ value.text) :: entryTexts entries

end

end Value

/-- `name: value` -/
def Argument.text (arg : Argument) : String := arg.name ++ ": " ++ arg.value.text

/-- `@name`, with the arguments in parentheses if there are any. -/
def DirectiveUse.text (use : DirectiveUse) : String :=
  match use.args with
  | [] => "@" ++ use.name
  | args => "@" ++ use.name ++ "(" ++ String.intercalate ", " (args.map Argument.text) ++ ")"

end SchemaCompiler
