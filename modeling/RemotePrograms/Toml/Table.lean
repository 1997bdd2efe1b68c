import RemotePrograms.Config.Datum

/-!
# `RemotePrograms.Toml.Table`: how a document grows

A document is a table of tables. It is written line by line, and not every line may add to every
table. So a table remembers its `Origin`. A header opens a table once. A header for an inner
table brings its outer tables into being without opening them, so they can still be opened
later. A dotted key brings tables into being that only dotted keys can add to. A header in two
pairs of brackets adds a table to a list of tables, and below that list a path leads through the
table that was added last.
-/

set_option autoImplicit false

namespace RemotePrograms.Toml

/-- How a table came into being. -/
inductive Origin where
  /-- By its own header, or as the document, or as a value. -/
  | opened
  /-- On the way to the table of another header. -/
  | implied
  /-- By a dotted key. -/
  | dotted
  deriving DecidableEq, Repr

/-- What a name in a document stands for. -/
inductive Node where
  | value (value : Datum)
  | table (origin : Origin) (entries : List (String × Node))
  /-- Tables that share a header. -/
  | tables (tables : List Node)
  deriving Inhabited

/-- The names of a table and what they stand for. -/
abbrev Entries := List (String × Node)

/-- Lets a name that is there stand for something else. -/
def Entries.replace (key : String) (node : Node) (entries : Entries) : Entries :=
  entries.map fun entry => if entry.1 = key then (key, node) else entry

/-- Changes the table at the end of a path. Tables that are missing on the way come into being,
by a dotted key or by a header. A value is no table, and a dotted key does not lead into a table
with a header of its own. -/
def within (byKey : Bool) (change : Origin → Entries → Option Entries) :
    List String → Origin → Entries → Option Entries
  | [], origin, entries => change origin entries
  | key :: path, _, entries =>
    match entries.lookup key with
    | none =>
      let origin := if byKey then .dotted else .implied
      (within byKey change path origin []).map fun inner => entries ++ [(key, .table origin inner)]
    | some (.value _) => none
    | some (.table origin inner) =>
      if byKey && origin == .opened then none
      else
        (within byKey change path origin inner).map fun inner =>
          Entries.replace key (.table origin inner) entries
    | some (.tables tables) =>
      match tables.getLast? with
      | some (.table origin inner) =>
        (within byKey change path origin inner).map fun inner =>
          Entries.replace key (.tables (tables.dropLast ++ [.table origin inner])) entries
      | _ => none

/-- Gives a name its value, in a table to which a dotted key leads or not. A table of dotted keys
takes no plain key and the other way round, and no name is given two values. -/
def define (byDots : Bool) (key : String) (value : Datum) (origin : Origin) (entries : Entries) :
    Option Entries :=
  if (origin == .dotted) == byDots && (entries.lookup key).isNone then
    some (entries ++ [(key, .value value)])
  else none

/-- Opens a table by its header. -/
def openTable (key : String) (_ : Origin) (entries : Entries) : Option Entries :=
  match entries.lookup key with
  | none => some (entries ++ [(key, .table .opened [])])
  | some (.table .implied inner) => some (Entries.replace key (.table .opened inner) entries)
  | some _ => none

/-- Adds a table to the tables that share a header. -/
def addTable (key : String) (_ : Origin) (entries : Entries) : Option Entries :=
  match entries.lookup key with
  | none => some (entries ++ [(key, .tables [.table .opened []])])
  | some (.tables tables) =>
    some (Entries.replace key (.tables (tables ++ [.table .opened []])) entries)
  | some _ => none

/-- Gives a key, plain or dotted, its value. `path` holds the parts of the key before the last. -/
def assign (path : List String) (key : String) (value : Datum) (origin : Origin)
    (entries : Entries) : Option Entries :=
  within true (define (!path.isEmpty) key value) path origin entries

mutual

/-- The value that a name stands for. -/
def Node.toDatum : Node → Datum
  | .value value => value
  | .table _ entries => .table (entriesToData entries)
  | .tables tables => .list (nodesToData tables)

/-- The names of a table with their values. -/
def entriesToData : List (String × Node) → List (String × Datum)
  | [] => []
  | (key, node) :: rest => (key, node.toDatum) :: entriesToData rest

/-- The values of some nodes. -/
def nodesToData : List Node → List Datum
  | [] => []
  | node :: rest => node.toDatum :: nodesToData rest

end

end RemotePrograms.Toml
