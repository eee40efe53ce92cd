import SchemaCompiler.Text.Printable

/-!
Quoted text in messages.

A character or a string is shown between quotes so that every message stays on one line and shows
which character it means: printable characters stand for themselves, the rest are escaped.
-/

namespace SchemaCompiler.Text

/-- Lower-case hexadecimal digits without leading zeros. -/
def hexDigits (n : Nat) : String := String.ofList (Nat.toDigits 16 n)

/-- The escape by code point. -/
def codePointEscape (c : Char) : String := "\\u\x7b" ++ hexDigits c.toNat ++ "\x7d"

/-- One character inside quotes; `quote` is the delimiter, which is escaped too. -/
def quotedChar (quote c : Char) : String :=
  if c = '\x00' then "\\0"
  else if c = '\t' then "\\t"
  else if c = '\r' then "\\r"
  else if c = '\n' then "\\n"
  else if c = '\\' then "\\\\"
  else if c = quote then String.ofList ['\\', c]
  else if ' ' ≤ c ∧ c ≤ '~' then c.toString
  else if isExtender c || !isPrintable c then codePointEscape c
  else c.toString

/-- A character between apostrophes. -/
def quoteChar (c : Char) : String := "'" ++ quotedChar '\'' c ++ "'"

/-- A string between double quotes. -/
def quoteString (s : String) : String :=
  "\"" ++ s.toList.foldl (fun text c => text ++ quotedChar '"' c) "" ++ "\""

/-- A character that may be missing, as at the end of a text. -/
def quoteOptionalChar : Option Char → String
  | none => "None"
  | some c => "Some(" ++ quoteChar c ++ ")"

/-- A list of quoted strings. -/
def quoteStrings (items : List String) : String :=
  "[" ++ String.intercalate ", " (items.map quoteString) ++ "]"

end SchemaCompiler.Text
