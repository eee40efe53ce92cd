import SchemaCompiler.Text.Utf8

/-!
Escapes and formats of shell commands that print.
-/

namespace SchemaCompiler.Shell

def isOctal (c : Char) : Bool := '0' ≤ c && c ≤ '7'

def octalValue (digits : List Char) : Nat :=
  digits.foldl (fun n c => n * 8 + (c.toNat - '0'.toNat)) 0

/-- The control character that a letter stands for behind a backslash. -/
def controlByte? : Char → Option UInt8
  | 'a' => some 7
  | 'b' => some 8
  | 'f' => some 12
  | 'n' => some 10
  | 'r' => some 13
  | 't' => some 9
  | 'v' => some 11
  | '\\' => some 92
  | _ => none

/-- The bytes of an escape and how many characters behind the backslash it takes. Octal digits may
have to follow a zero. -/
def escapeBytes (zeroFirst : Bool) (rest : List Char) : Bytes × Nat :=
  let octal (digits : List Char) : Bytes := [(octalValue digits % 256).toUInt8]
  match rest with
  | [] => ([92], 0)
  | c :: more =>
    match controlByte? c with
    | some b => ([b], 1)
    | none =>
      if zeroFirst then
        if c = '0' then
          let digits := (more.take 3).takeWhile isOctal
          (octal digits, 1 + digits.length)
        else ([92], 0)
      else
        let digits := (rest.take 3).takeWhile isOctal
        if digits.isEmpty then
          if c = '"' ∨ c = '\'' then (Text.encode c.toString, 1) else ([92], 0)
        else (octal digits, digits.length)

/-- A text with its escapes taken as the bytes they stand for, from where `skipped` characters have
been taken account of. The flag says whether `\c` cut the text short. -/
def unescape (skipped : Nat) : List Char → Bytes × Bool
  | [] => ([], false)
  | c :: rest =>
    match skipped with
    | n + 1 => unescape n rest
    | 0 =>
      if c = '\\' then
        if rest.head? = some 'c' then ([], true)
        else
          let (bytes, count) := escapeBytes true rest
          let (more, cut) := unescape count rest
          (bytes ++ more, cut)
      else
        let (more, cut) := unescape 0 rest
        (Text.encode c.toString ++ more, cut)

/-- What a conversion makes of an argument; a conversion without an argument gets an empty one. -/
def convert (conversion : Char) (arg : String) : Bytes :=
  match conversion with
  | 's' => Text.encode arg
  | 'b' => (unescape 0 arg.toList).1
  | 'c' => Text.encode (String.ofList (arg.toList.take 1))
  | 'd' | 'i' | 'u' => Text.encode (toString ((arg.toInt?).getD 0))
  | 'x' => Text.encode (String.ofList (Nat.toDigits 16 (arg.toNat?.getD 0)))
  | 'o' => Text.encode (String.ofList (Nat.toDigits 8 (arg.toNat?.getD 0)))
  | _ => []

/-- One pass over a format. Gives the arguments that are left. -/
def formatOnce (skipped : Nat) (args : List String) : List Char → Bytes × List String
  | [] => ([], args)
  | c :: rest =>
    match skipped with
    | n + 1 => formatOnce n args rest
    | 0 =>
      if c = '\\' then
        let (bytes, count) := escapeBytes false rest
        let (more, args) := formatOnce count args rest
        (bytes ++ more, args)
      else if c = '%' then
        match rest.head? with
        | none => (Text.encode "%", args)
        | some '%' =>
          let (more, args) := formatOnce 1 args rest
          (Text.encode "%" ++ more, args)
        | some conversion =>
          let (more, left) := formatOnce 1 (args.drop 1) rest
          (convert conversion (args.headD "") ++ more, left)
      else
        let (more, args) := formatOnce 0 args rest
        (Text.encode c.toString ++ more, args)

/-- The format again and again until no argument is left; `rounds` bounds the repetitions. -/
def formatAll (rounds : Nat) (format : List Char) (args : List String) : Bytes :=
  let (bytes, left) := formatOnce 0 args format
  match rounds with
  | 0 => bytes
  | rounds + 1 =>
    if left.isEmpty ∨ left.length = args.length then bytes
    else bytes ++ formatAll rounds format left

/-- What `printf` prints. -/
def printf (args : List String) : Bytes :=
  match args with
  | [] => []
  | format :: args => formatAll args.length format.toList args

/-- What `echo` prints. -/
def echo (args : List String) : Bytes :=
  let (bare, words) := match args with
    | "-n" :: words => (true, words)
    | words => (false, words)
  let (bytes, cut) := unescape 0 (String.intercalate " " words).toList
  if bare ∨ cut then bytes else bytes ++ [10]

end SchemaCompiler.Shell
