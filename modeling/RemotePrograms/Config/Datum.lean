/-!
# `RemotePrograms.Config.Datum`: values of data formats

A `Datum` is what a text in a data format spells, whichever the format is. Settings are read
from it, and settings are texts and whole numbers; so of a number with a fraction and of a date
only the kind is kept.

A record can be spelled in two ways: as a table, whose names pick the fields, or as a list,
which holds the fields in their order. In both a field may be missing. A table may hold names
that are no fields, and they are passed over. Whether a list may hold more items than there are
fields depends on the format, so `Datum.fields?` takes that as an argument.
-/

set_option autoImplicit false

namespace RemotePrograms

/-- A value of a data format. -/
inductive Datum where
  | null
  | boolean (b : Bool)
  | integer (n : Int)
  /-- A number with a fraction or an exponent, or one that is no number. -/
  | real
  | text (s : String)
  /-- A date, a time of day, or both. -/
  | moment
  | list (items : List Datum)
  | table (entries : List (String × Datum))
  deriving Repr, Inhabited

namespace Datum

/-- The fields of a record with these field names, if a value spells one. A date stands for a
record without any field. -/
def fields? (names : List String) (surplus : Bool) : Datum → Option (List (String × Datum))
  | table entries => some entries
  | list items =>
    if surplus || items.length ≤ names.length then some (names.zip items) else none
  | moment => some []
  | _ => none

/-- A text. -/
def text? : Datum → Option String
  | text s => some s
  | _ => none

/-- A whole number of 16 bits without a sign. -/
def uint16? : Datum → Option UInt16
  | integer n => if 0 ≤ n ∧ n < 0x10000 then some (.ofNat n.toNat) else none
  | _ => none

/-- A whole number of 64 bits without a sign. -/
def uint64? : Datum → Option UInt64
  | integer n => if 0 ≤ n ∧ n < 0x10000000000000000 then some (.ofNat n.toNat) else none
  | _ => none

/-- Reads a field by its name. A field that is missing has its default. -/
def field? {α : Type} (fields : List (String × Datum)) (name : String) (read : Datum → Option α)
    (missing : α) : Option α :=
  match fields.lookup name with
  | none => some missing
  | some value => read value

end Datum

end RemotePrograms
