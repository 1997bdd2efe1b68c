import RemotePrograms.Config.Datum
import RemotePrograms.Toml.Lexical

/-!
# `RemotePrograms.Toml.Moment`: dates and times

A date is a year, a month and a day, and has to be in the calendar. A time of day goes down to
seconds, of which a minute may have sixty-one, and may have a fraction. Both together are
separated by the letter T or by one blank, and may be followed by the distance of the clock from
universal time.
-/

set_option autoImplicit false

namespace RemotePrograms.Toml

/-- The days of a month. -/
def daysOfMonth (year month : Nat) : Nat :=
  if month = 2 then
    if year % 4 = 0 ∧ (year % 100 ≠ 0 ∨ year % 400 = 0) then 29 else 28
  else if month = 4 ∨ month = 6 ∨ month = 9 ∨ month = 11 then 30
  else 31

/-- Two decimal digits whose number lies between two bounds. -/
def twoDigits? (least greatest : Nat) : Reader Nat := fun cs => do
  let (n, rest) ← fixedDigits? 10 2 cs
  if least ≤ n ∧ n ≤ greatest then some (n, rest) else none

/-- What is left behind a date. -/
def skipDate? (cs : List Char) : Option (List Char) := do
  let (year, cs) ← fixedDigits? 10 4 cs
  let cs ← expect '-' cs
  let (month, cs) ← twoDigits? 1 12 cs
  let cs ← expect '-' cs
  let (_, cs) ← twoDigits? 1 (daysOfMonth year month) cs
  return cs

/-- What is left behind the fraction of a second, if there is one. -/
def skipFraction? : List Char → Option (List Char)
  | '.' :: c :: rest => if isDecimal c then some (rest.dropWhile isDecimal) else none
  | '.' :: [] => none
  | cs => some cs

/-- What is left behind an hour and a minute. -/
def skipMinute? (cs : List Char) : Option (List Char) := do
  let (_, cs) ← twoDigits? 0 23 cs
  let cs ← expect ':' cs
  let (_, cs) ← twoDigits? 0 59 cs
  return cs

/-- What is left behind a time of day. -/
def skipTime? (cs : List Char) : Option (List Char) := do
  let cs ← skipMinute? cs
  let cs ← expect ':' cs
  let (_, cs) ← twoDigits? 0 60 cs
  skipFraction? cs

/-- What is left behind the distance from universal time, if there is one. -/
def skipOffset : List Char → List Char
  | [] => []
  | c :: rest =>
    if c = 'Z' ∨ c = 'z' then rest
    else if c = '+' ∨ c = '-' then (skipMinute? rest).getD (c :: rest)
    else c :: rest

/-- What is left behind the time of day that belongs to a date, if there is one. -/
def skipTimeOfDate : List Char → List Char
  | [] => []
  | c :: rest =>
    if c = 'T' ∨ c = 't' ∨ c = ' ' then ((skipTime? rest).map skipOffset).getD (c :: rest)
    else c :: rest

/-- A date, a time of day, or both. -/
def moment? : Reader Datum := fun cs =>
  (((skipDate? cs).map skipTimeOfDate) <|> skipTime? cs).map fun rest => (.moment, rest)

end RemotePrograms.Toml
