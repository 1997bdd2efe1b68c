import RemotePrograms.Bytes

/-!
# `RemotePrograms.Text.Utf16`: text as little-endian UTF-16

A character up to U+FFFF is one code unit. Any other character is a pair of surrogates, the
high one first, that carry ten bits each. `encode` writes a text as the octets of its units and
`decode?` reads them back. Octets that are odd in number, or that hold a surrogate without its
partner, are no text.

`trimNuls` takes NUL characters off the end of a text and off nowhere else: a field that is
longer than its text is filled up with them.
-/

set_option autoImplicit false

namespace RemotePrograms.Text.Utf16

/-- The first half of a pair. -/
def IsHigh (u : UInt16) : Prop := 0xD800 ≤ u.toNat ∧ u.toNat < 0xDC00

/-- The second half of a pair. -/
def IsLow (u : UInt16) : Prop := 0xDC00 ≤ u.toNat ∧ u.toNat < 0xE000

instance (u : UInt16) : Decidable (IsHigh u) := inferInstanceAs (Decidable (_ ∧ _))

instance (u : UInt16) : Decidable (IsLow u) := inferInstanceAs (Decidable (_ ∧ _))

/-- The code units of one character. -/
def units (c : Char) : List UInt16 :=
  if c.toNat < 0x10000 then [.ofNat c.toNat]
  else
    [.ofNat (0xD800 + (c.toNat - 0x10000) / 0x400), .ofNat (0xDC00 + (c.toNat - 0x10000) % 0x400)]

/-- The character that a pair stands for. -/
def pair (high low : UInt16) : Char :=
  .ofNat (0x10000 + (high.toNat - 0xD800) * 0x400 + (low.toNat - 0xDC00))

/-- The characters of a run of code units, if every surrogate in it has its partner. -/
def chars? : List UInt16 → Option (List Char)
  | [] => some []
  | [u] => if IsHigh u ∨ IsLow u then none else some [.ofNat u.toNat]
  | u :: v :: rest =>
    if IsHigh u then
      if IsLow v then (chars? rest).map (pair u v :: ·) else none
    else if IsLow u then none
    else (chars? (v :: rest)).map (.ofNat u.toNat :: ·)

/-- The code units that octets spell, if they are even in number. -/
def units? : Bytes → Option (List UInt16)
  | [] => some []
  | [_] => none
  | a :: b :: rest => (units? rest).map (word16 a b :: ·)

/-- The octets of a text. -/
def encode (text : String) : Bytes :=
  (text.toList.flatMap units).flatMap le16

/-- The text that octets spell, if they spell one. -/
def decode? (octets : Bytes) : Option String :=
  ((units? octets).bind chars?).map String.ofList

/-- The text without the NUL characters at its end. -/
def trimNuls (text : String) : String :=
  .ofList (text.toList.reverse.dropWhile (· == '\x00')).reverse

end RemotePrograms.Text.Utf16
