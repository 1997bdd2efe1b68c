import RemotePrograms.Toml.Lexical

/-!
# `RemotePrograms.Toml.Quoted`: texts between quotes

There are four kinds of quoted text. Between single quotes every character stands for itself;
between double quotes a backslash begins an escape. Each kind can stand on one line or, between
triple quotes, on several. A text on several lines loses a line end that comes first, and its
other line ends are line feeds. One or two quotes may stand in it, also right before the three
that close it. A backslash at the end of a line takes the line end with it, and all blanks and
line ends behind.

`quoted` writes a text between double quotes on one line.
-/

set_option autoImplicit false

namespace RemotePrograms.Toml

/-- The character with this number, if there is one. -/
def scalar? (n : Nat) : Option Char :=
  if n < 0xD800 ∨ (0xDFFF < n ∧ n < 0x110000) then some (.ofNat n) else none

/-- The character that an escape with hexadecimal digits stands for. -/
def numbered? (digits : List Char) : Option Char :=
  if digits.all (isDigitOf 16) then scalar? (numberOf 16 digits) else none

/-- The character that an escape with one letter stands for. -/
def lettered? : Char → Option Char
  | 'b' => some '\x08'
  | 't' => some '\t'
  | 'n' => some '\n'
  | 'f' => some '\x0c'
  | 'r' => some '\r'
  | '"' => some '"'
  | '\\' => some '\\'
  | _ => none

/-- Puts a character, if there is one, in front of what a reader has read. -/
def prepend (c : Option Char) (read : Option (List Char × List Char)) :
    Option (List Char × List Char) := do
  let first ← c
  let (text, rest) ← read
  return (first :: text, rest)

/-- Whether a line ends here, but for blanks. -/
def endsLine (cs : List Char) : Bool :=
  (lineEnd? (skipBlanks cs)).isSome

/-- The text behind a double quote, on one line. -/
def doubleQuoted : Reader (List Char)
  | [] => none
  | '"' :: rest => some ([], rest)
  | '\\' :: 'u' :: a :: b :: c :: d :: rest => prepend (numbered? [a, b, c, d]) (doubleQuoted rest)
  | '\\' :: 'U' :: a :: b :: c :: d :: e :: f :: g :: h :: rest =>
    prepend (numbered? [a, b, c, d, e, f, g, h]) (doubleQuoted rest)
  | '\\' :: c :: rest => prepend (lettered? c) (doubleQuoted rest)
  | c :: rest => if isPlain c then prepend (some c) (doubleQuoted rest) else none

/-- The text behind a single quote, on one line. -/
def singleQuoted : Reader (List Char)
  | [] => none
  | '\'' :: rest => some ([], rest)
  | c :: rest => if isPlain c then prepend (some c) (singleQuoted rest) else none

/-- The text behind three double quotes. `skipping` says that blanks and line ends do not count,
as it is behind a backslash at the end of a line. -/
def doubleQuotedLines (skipping : Bool) : Reader (List Char)
  | [] => none
  | '"' :: '"' :: '"' :: '"' :: '"' :: rest => some (['"', '"'], rest)
  | '"' :: '"' :: '"' :: '"' :: rest => some (['"'], rest)
  | '"' :: '"' :: '"' :: rest => some ([], rest)
  | '\\' :: 'u' :: a :: b :: c :: d :: rest =>
    prepend (numbered? [a, b, c, d]) (doubleQuotedLines false rest)
  | '\\' :: 'U' :: a :: b :: c :: d :: e :: f :: g :: h :: rest =>
    prepend (numbered? [a, b, c, d, e, f, g, h]) (doubleQuotedLines false rest)
  | '\\' :: c :: rest =>
    if endsLine (c :: rest) then doubleQuotedLines true (c :: rest)
    else prepend (lettered? c) (doubleQuotedLines false rest)
  | '\r' :: '\n' :: rest =>
    if skipping then doubleQuotedLines true rest
    else prepend (some '\n') (doubleQuotedLines false rest)
  | '\n' :: rest =>
    if skipping then doubleQuotedLines true rest
    else prepend (some '\n') (doubleQuotedLines false rest)
  | c :: rest =>
    if skipping && isBlank c then doubleQuotedLines true rest
    else if isPlain c then prepend (some c) (doubleQuotedLines false rest)
    else none

/-- The text behind three single quotes. -/
def singleQuotedLines : Reader (List Char)
  | [] => none
  | '\'' :: '\'' :: '\'' :: '\'' :: '\'' :: rest => some (['\'', '\''], rest)
  | '\'' :: '\'' :: '\'' :: '\'' :: rest => some (['\''], rest)
  | '\'' :: '\'' :: '\'' :: rest => some ([], rest)
  | '\r' :: '\n' :: rest => prepend (some '\n') (singleQuotedLines rest)
  | '\n' :: rest => prepend (some '\n') (singleQuotedLines rest)
  | c :: rest => if isPlain c then prepend (some c) (singleQuotedLines rest) else none

/-- What is left when a line end that comes first is taken off. -/
def skipFirstLineEnd (cs : List Char) : List Char :=
  (lineEnd? cs).getD cs

/-- A quoted text that stands on one line. -/
def lineText? : Reader String := fun cs =>
  Option.map (fun (text, rest) => (.ofList text, rest)) <|
    match cs with
    | '"' :: rest => doubleQuoted rest
    | '\'' :: rest => singleQuoted rest
    | _ => none

/-- A quoted text of any kind. -/
def text? : Reader String := fun cs =>
  match cs with
  | '"' :: '"' :: '"' :: rest =>
    (doubleQuotedLines false (skipFirstLineEnd rest)).map fun (text, rest) => (.ofList text, rest)
  | '\'' :: '\'' :: '\'' :: rest =>
    (singleQuotedLines (skipFirstLineEnd rest)).map fun (text, rest) => (.ofList text, rest)
  | _ => lineText? cs

/-- A hexadecimal digit, in capitals. -/
def hexDigit (n : Nat) : Char :=
  (Nat.digitChar (n % 16)).toUpper

/-- One character as it is written between double quotes. -/
def quotedChar (c : Char) : List Char :=
  if c = '"' then ['\\', '"']
  else if c = '\\' then ['\\', '\\']
  else if isPlain c then [c]
  else
    ['\\', 'u', hexDigit (c.toNat / 0x1000), hexDigit (c.toNat / 0x100), hexDigit (c.toNat / 0x10),
      hexDigit c.toNat]

/-- A text between double quotes on one line. -/
def quoted (text : String) : String :=
  .ofList ('"' :: text.toList.flatMap quotedChar ++ ['"'])

end RemotePrograms.Toml
