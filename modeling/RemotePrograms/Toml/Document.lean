import RemotePrograms.Toml.Moment
import RemotePrograms.Toml.Number
import RemotePrograms.Toml.Quoted
import RemotePrograms.Toml.Table

/-!
# `RemotePrograms.Toml.Document`: texts in TOML

`parse?` reads a text in version 1.0 of the format TOML and gives the table that it spells, or
nothing if the text has a fault. Lists and tables in braces nest to a limited depth, and a dotted
key has a limited number of parts.
-/

set_option autoImplicit false

namespace RemotePrograms.Toml

/-- How deep values may nest, and how many parts a key may have. -/
def maxDepth : Nat := 79

/-- A character of a key without quotes. -/
def isBare (c : Char) : Bool :=
  c.isAlphanum || c = '_' || c = '-'

/-- One part of a key. -/
def keyPart? : Reader String := fun cs =>
  match cs.takeWhile isBare with
  | [] => lineText? cs
  | name => some (.ofList name, cs.dropWhile isBare)

/-- The parts of a key of at most so many parts, with blanks around the dots. -/
def keyParts? : Nat → Reader (List String)
  | 0, _ => none
  | fuel + 1, cs => do
    let (part, cs) ← keyPart? (skipBlanks cs)
    match skipBlanks cs with
    | '.' :: rest =>
      let (parts, rest) ← keyParts? fuel rest
      return (part :: parts, rest)
    | rest => return ([part], rest)

/-- A key: the parts before its last one, and the last one. -/
def key? : Reader (List String × String) := fun cs => do
  let (parts, rest) ← keyParts? maxDepth cs
  return ((parts.dropLast, ← parts.getLast?), rest)

/-- The items of a list behind its bracket, of which there are at most so many. A comma may stand
behind the last one. -/
def items? (item : Reader Datum) : Nat → Reader (List Datum)
  | 0, _ => none
  | fuel + 1, cs =>
    match skipLines false cs with
    | ']' :: rest => some ([], rest)
    | cs => do
      let (first, cs) ← item cs
      match skipLines false cs with
      | ',' :: rest =>
        let (others, rest) ← items? item fuel rest
        return (first :: others, rest)
      | ']' :: rest => return ([first], rest)
      | _ => none

/-- A key, an equality sign, and a value. -/
def assignment? (item : Reader Datum) : Reader (List String × String × Datum) := fun cs => do
  let ((path, key), cs) ← key? cs
  let cs ← expect '=' cs
  let (value, rest) ← item (skipBlanks cs)
  return ((path, key, value), rest)

/-- The assignments of a table in braces behind its brace and the first blanks, of which there
are at most so many. They stand on one line, and no comma stands behind the last one. -/
def members? (item : Reader Datum) (entries : Entries) : Nat → Reader Entries
  | 0, _ => none
  | fuel + 1, cs => do
    let ((path, key, value), cs) ← assignment? item cs
    let entries ← assign path key value .opened entries
    match skipBlanks cs with
    | ',' :: rest => members? item entries fuel rest
    | '\x7d' :: rest => return (entries, rest)
    | _ => none

/-- A value that holds no other values. -/
def plainValue? : Reader Datum := fun cs =>
  match cs with
  | 't' :: 'r' :: 'u' :: 'e' :: rest => some (.boolean true, rest)
  | 'f' :: 'a' :: 'l' :: 's' :: 'e' :: rest => some (.boolean false, rest)
  | _ =>
    (text? cs).map (fun (text, rest) => (.text text, rest)) <|> moment? cs <|> number? cs

/-- A value in which values nest at most so deep. -/
def value? : Nat → Reader Datum
  | 0, cs => plainValue? cs
  | depth + 1, cs =>
    match cs with
    | '[' :: rest => do
      let (items, rest) ← items? (value? depth) cs.length rest
      return (.list items, rest)
    | '\x7b' :: rest =>
      match skipBlanks rest with
      | '\x7d' :: rest => some (.table [], rest)
      | inner => do
        let (entries, rest) ← members? (value? depth) [] cs.length inner
        return (.table (entriesToData entries), rest)
    | _ => plainValue? cs

/-- A document that has been read in part. -/
structure Draft where
  entries : Entries := []
  /-- The path to the table of the last header. -/
  path : List String := []

/-- A line with a header in one pair of brackets, behind the first bracket. -/
def tableLine? (draft : Draft) (cs : List Char) : Option (Draft × List Char) := do
  let ((path, key), cs) ← key? cs
  let cs ← expect ']' cs
  let entries ← within false (openTable key) path .opened draft.entries
  return ({ entries, path := path ++ [key] }, ← closeLine? cs)

/-- A line with a header in two pairs of brackets, behind the first two. -/
def tablesLine? (draft : Draft) (cs : List Char) : Option (Draft × List Char) := do
  let ((path, key), cs) ← key? cs
  let cs ← expect ']' (← expect ']' cs)
  let entries ← within false (addTable key) path .opened draft.entries
  return ({ entries, path := path ++ [key] }, ← closeLine? cs)

/-- A line that gives a key its value. -/
def keyLine? (draft : Draft) (cs : List Char) : Option (Draft × List Char) := do
  let ((path, key, value), cs) ← assignment? (value? maxDepth) cs
  let entries ← within false (assign path key value) draft.path .opened draft.entries
  return ({ draft with entries }, ← closeLine? cs)

/-- One line, from its first character that is no blank. -/
def line? (draft : Draft) (cs : List Char) : Option (Draft × List Char) :=
  match cs with
  | '[' :: '[' :: rest => tablesLine? draft rest
  | '[' :: rest => tableLine? draft rest
  | '#' :: _ => (closeLine? cs).map fun rest => (draft, rest)
  | _ => ((lineEnd? cs).map fun rest => (draft, rest)) <|> keyLine? draft cs

/-- The lines of a text, of which there are at most so many. -/
def lines? : Nat → Draft → List Char → Option Draft
  | 0, _, _ => none
  | fuel + 1, draft, cs =>
    match skipBlanks cs with
    | [] => some draft
    | cs => (line? draft cs).bind fun (draft, rest) => lines? fuel draft rest

/-- The table that a text spells. A mark of the byte order may stand before the text. -/
def parse? (text : String) : Option Datum :=
  let cs := match text.toList with
    | '\uFEFF' :: rest => rest
    | cs => cs
  (lines? (cs.length + 1) {} cs).map fun draft => .table (entriesToData draft.entries)

end RemotePrograms.Toml
