/-!
# `RemotePrograms.Bytes`: little-endian fields

Everything on the wire is a list of octets, and every number in it has its least significant
octet first. The writers `le16` and `le32` and the readers `word16` and `word32` are stated by
division and multiplication rather than by shifts, so that a statement about a field becomes
arithmetic on natural numbers. The readers undo the writers, `word16_le16` and `word32_le32`.
-/

set_option autoImplicit false

namespace RemotePrograms

/-- A string of octets. -/
abbrev Bytes := List UInt8

/-- The two octets of a 16-bit field. -/
def le16 (n : UInt16) : Bytes :=
  [n.toUInt8, (n / 0x100).toUInt8]

/-- The four octets of a 32-bit field. -/
def le32 (n : UInt32) : Bytes :=
  [n.toUInt8, (n / 0x100).toUInt8, (n / 0x10000).toUInt8, (n / 0x1000000).toUInt8]

/-- The 16-bit field with these octets, lowest first. -/
def word16 (a b : UInt8) : UInt16 :=
  a.toUInt16 + 0x100 * b.toUInt16

/-- The 32-bit field with these octets, lowest first. -/
def word32 (a b c d : UInt8) : UInt32 :=
  a.toUInt32 + 0x100 * b.toUInt32 + 0x10000 * c.toUInt32 + 0x1000000 * d.toUInt32

/-- A number of 16 bits takes two octets. -/
@[simp] theorem length_le16 (n : UInt16) : (le16 n).length = 2 := rfl

/-- A number of 32 bits takes four octets. -/
@[simp] theorem length_le32 (n : UInt32) : (le32 n).length = 4 := rfl

/-- The octets of a number of 16 bits make up that number again. -/
theorem word16_le16 (n : UInt16) : word16 n.toUInt8 (n / 0x100).toUInt8 = n := by
  have h := n.toNat_lt
  apply UInt16.toNat_inj.mp
  simp only [word16, UInt16.toNat_add, UInt16.toNat_mul, UInt8.toNat_toUInt16,
    UInt16.toNat_toUInt8, UInt16.toNat_div, UInt16.reduceToNat]
  omega

/-- The octets of a number of 32 bits make up that number again. -/
theorem word32_le32 (n : UInt32) :
    word32 n.toUInt8 (n / 0x100).toUInt8 (n / 0x10000).toUInt8 (n / 0x1000000).toUInt8 = n := by
  have h := n.toNat_lt
  apply UInt32.toNat_inj.mp
  simp only [word32, UInt32.toNat_add, UInt32.toNat_mul, UInt8.toNat_toUInt32,
    UInt32.toNat_toUInt8, UInt32.toNat_div, UInt32.reduceToNat]
  omega

end RemotePrograms
