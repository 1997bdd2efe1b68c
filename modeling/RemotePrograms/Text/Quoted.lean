/-!
# `RemotePrograms.Text.Quoted`: text between quotes

The form in which diagnostics show a text: between double quotes, with a backslash before a
quote or a backslash, and with a letter or a hexadecimal escape for what would not show on a
line. Only the controls of ASCII are escaped; every other character stands for itself.
-/

set_option autoImplicit false

namespace RemotePrograms.Text

/-- The digits of a number to base sixteen, in small letters. -/
def hexadecimal (n : Nat) : String :=
  .ofList (Nat.toDigits 16 n)

/-- One character as it shows between quotes. -/
def quotedChar (c : Char) : String :=
  if c = '"' then "\\\""
  else if c = '\\' then "\\\\"
  else if c = '\n' then "\\n"
  else if c = '\r' then "\\r"
  else if c = '\t' then "\\t"
  else if c = '\x00' then "\\0"
  else if c.toNat < 0x20 ∨ c.toNat = 0x7F then "\\u\x7b" ++ hexadecimal c.toNat ++ "\x7d"
  else c.toString

/-- A text between quotes. -/
def quoted (text : String) : String :=
  "\"" ++ .join (text.toList.map quotedChar) ++ "\""

/-- A truth value in diagnostics. -/
def ofBool (b : Bool) : String :=
  if b then "true" else "false"

/-- Texts between brackets with commas, as diagnostics show a list. -/
def bracketed (items : List String) : String :=
  "[" ++ ", ".intercalate items ++ "]"

end RemotePrograms.Text
