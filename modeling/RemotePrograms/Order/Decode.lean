import RemotePrograms.Order.Encode

/-!
# `RemotePrograms.Order.Decode`: a server's order from its octets

`ServerOrder.decode` reads the order at the start of some octets. The header announces the length
of the whole order, and what lies behind that length plays no part. A body may be longer than
its fields: what is left over is ignored, except in an order of a type without a meaning, which
keeps its body whole. Of several faults the first one on the way is reported: the header, its
length, the body, its fixed part, the program's octets, their text.
-/

set_option autoImplicit false

namespace RemotePrograms

/-- The header at the start of some octets: the order's type and the length that it announces. -/
def header? : Bytes → Option (UInt16 × Nat)
  | a :: b :: c :: d :: _ => some (word16 a b, (word16 c d).toNat)
  | _ => none

/-- The length that the header at the start of some octets announces, if it is all there. -/
def announcedLength? (octets : Bytes) : Option Nat :=
  (header? octets).map Prod.snd

/-- The order in the body of a handshake. -/
def Handshake.decode : Bytes → Except Error Handshake
  | a :: b :: c :: d :: _ => .ok ⟨word32 a b c d⟩
  | body => .error (.truncated "handshake" 4 body.length)

/-- The order in the body of an extended handshake. -/
def ExtendedHandshake.decode : Bytes → Except Error ExtendedHandshake
  | a :: b :: c :: d :: e :: f :: g :: h :: _ => .ok ⟨word32 a b c d, ⟨word32 e f g h⟩⟩
  | body => .error (.truncated "handshake ex" 8 body.length)

/-- The name of the text in a server's report. -/
def reportedProgram : String := "exec result program"

/-- The program in a server's report: the first `size` octets, without the NULs at their end. -/
def decodeProgram (size : Nat) (octets : Bytes) : Except Error String :=
  if octets.length < size then .error (.truncated reportedProgram size octets.length)
  else
    match Text.Utf16.decode? (octets.take size) with
    | none => .error (.badText reportedProgram)
    | some text => .ok (Text.Utf16.trimNuls text)

/-- The order in the body of a server's report. -/
def LaunchReport.decode : Bytes → Except Error LaunchReport
  | f₀ :: f₁ :: r₀ :: r₁ :: w₀ :: w₁ :: w₂ :: w₃ :: _ :: _ :: s₀ :: s₁ :: rest =>
    (decodeProgram (word16 s₀ s₁).toNat rest).map fun program =>
      { flags := ⟨word16 f₀ f₁⟩
        result := .ofCode (word16 r₀ r₁)
        rawResult := word32 w₀ w₁ w₂ w₃
        program }
  | body => .error (.truncated "exec result" 12 body.length)

/-- The order with this type and body. -/
def ServerOrder.decodeBody (type : UInt16) (body : Bytes) : Except Error ServerOrder :=
  match OrderType.ofWire? type with
  | some .handshake => (Handshake.decode body).map .handshake
  | some .extendedHandshake => (ExtendedHandshake.decode body).map .extendedHandshake
  | some .launchReport => (LaunchReport.decode body).map .launchReport
  | _ => .ok (.other type body)

/-- The order at the start of some octets. -/
def ServerOrder.decode (octets : Bytes) : Except Error ServerOrder :=
  match header? octets with
  | none => .error (.truncated "order header" headerSize octets.length)
  | some (type, length) =>
    if length < headerSize then .error (.badLength length)
    else if octets.length < length then .error (.truncated "order body" length octets.length)
    else ServerOrder.decodeBody type ((octets.take length).drop headerSize)

end RemotePrograms
