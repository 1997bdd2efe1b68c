import RemotePrograms.Config.Datum
import RemotePrograms.Toml.Lexical

/-!
# `RemotePrograms.Toml.Number`: whole numbers and others

A whole number is decimal, with a sign if it likes and without zeros in front, or it has no sign
and begins with `0x`, `0o` or `0b`. It has to fit into 64 bits with a sign. A number with a
fraction or an exponent is a real one, and so are infinity and what is no number. Between two
digits there may be one underscore. A real number that is too great for the format of 64 bits is
no number at all; one that is too small in that sense, far below zero, is one.
-/

set_option autoImplicit false

namespace RemotePrograms.Toml

/-- The digits at the front of a text, without the underscores between them. -/
def digitRun (isDigit : Char → Bool) : List Char → List Char × List Char
  | [] => ([], [])
  | [c] => if isDigit c then ([c], []) else ([], [c])
  | c :: d :: rest =>
    if isDigit c then
      if d = '_' then
        match rest with
        | e :: _ =>
          if isDigit e then
            let (digits, rest) := digitRun isDigit rest
            (c :: digits, rest)
          else ([c], d :: rest)
        | [] => ([c], [d])
      else
        let (digits, rest) := digitRun isDigit (d :: rest)
        (c :: digits, rest)
    else ([], c :: d :: rest)

/-- At least one digit, with underscores between digits. -/
def digits? (isDigit : Char → Bool) : Reader (List Char) := fun cs =>
  match digitRun isDigit cs with
  | ([], _) => none
  | read => some read

/-- A sign, if there is one: whether it is a minus. -/
def takeSign : List Char → Bool × List Char
  | '-' :: rest => (true, rest)
  | '+' :: rest => (false, rest)
  | cs => (false, cs)

/-- The digits of a decimal whole number. A zero stands alone. -/
def decimalDigits? : Reader (List Char)
  | '0' :: rest => some (['0'], rest)
  | cs => digits? isDecimal cs

/-- A whole number, if it fits into 64 bits with a sign. -/
def ranged? (n : Int) : Option Datum :=
  if -0x8000000000000000 ≤ n ∧ n < 0x8000000000000000 then some (.integer n) else none

/-- A whole number with digits to this base. -/
def based? (base : Nat) : Reader Datum := fun cs => do
  let (digits, rest) ← digits? (isDigitOf base) cs
  return (← ranged? (numberOf base digits), rest)

/-- A whole number. -/
def integer? : Reader Datum
  | '0' :: 'x' :: rest => based? 16 rest
  | '0' :: 'o' :: rest => based? 8 rest
  | '0' :: 'b' :: rest => based? 2 rest
  | cs => do
    let (isNegative, cs) := takeSign cs
    let (digits, rest) ← decimalDigits? cs
    let n : Int := numberOf 10 digits
    return (← ranged? (if isNegative then -n else n), rest)

/-- The exponent of a real number, if there is one. -/
def exponent? : Reader Int := fun cs =>
  match cs with
  | c :: rest => do
    if c = 'e' ∨ c = 'E' then
      let (isNegative, rest) := takeSign rest
      let (digits, rest) ← digits? isDecimal rest
      let n : Int := numberOf 10 digits
      return (if isNegative then -n else n, rest)
    else none
  | [] => none

/-- Whether a decimal number is at least half a unit of the last place above the greatest real
number of 64 bits. The number is `mantissa` with the point moved by `exponent` places. -/
def overflows (mantissa : Nat) (exponent : Int) : Bool :=
  let magnitude : Int := (Nat.toDigits 10 mantissa).length + exponent
  if mantissa = 0 ∨ magnitude < 300 then false
  else if 400 < magnitude then true
  else
    let limit := (Nat.pow 2 54 - 1) * Nat.pow 2 970
    if 0 ≤ exponent then limit ≤ mantissa * Nat.pow 10 exponent.toNat
    else limit * Nat.pow 10 (-exponent).toNat ≤ mantissa

/-- A real number that is written with digits. -/
def decimalReal? : Reader Datum := fun cs => do
  let (isNegative, cs) := takeSign cs
  let (whole, cs) ← decimalDigits? cs
  let (fraction, cs, hasFraction) ← match cs with
    | '.' :: rest => (digits? isDecimal rest).map fun (digits, rest) => (digits, rest, true)
    | _ => some ([], cs, false)
  match exponent? cs with
  | some (exponent, rest) =>
    if !isNegative && overflows (numberOf 10 (whole ++ fraction)) (exponent - fraction.length) then
      none
    else some (.real, rest)
  | none =>
    let mantissa := numberOf 10 (whole ++ fraction)
    if hasFraction && (isNegative || !overflows mantissa (-fraction.length)) then some (.real, cs)
    else none

/-- Infinity and what is no number. -/
def specialReal? : Reader Datum := fun cs =>
  match (takeSign cs).2 with
  | 'i' :: 'n' :: 'f' :: rest => some (.real, rest)
  | 'n' :: 'a' :: 'n' :: rest => some (.real, rest)
  | _ => none

/-- A number. -/
def number? : Reader Datum := fun cs =>
  decimalReal? cs <|> specialReal? cs <|> integer? cs

end RemotePrograms.Toml
