import RemotePrograms.Order.Decode

/-!
# `RemotePrograms.Order.Framing`: a stream cut into orders

A byte stream carries orders one behind the other. `nextOrder` takes the first one off the
octets that have arrived. It waits while the header or the announced length is not complete, and
it takes nothing from a stream whose header announces less than itself, because nothing says
where such an order would end. Every other order is taken off whole, also one whose body is
malformed, so the orders behind it stay in step.

`lastOrder` is the step at the end of a stream, where octets that are no order cannot become one
any more.
-/

set_option autoImplicit false

namespace RemotePrograms

/-- What the octets that have arrived amount to. -/
inductive Framed where
  /-- More octets are needed. -/
  | waiting
  /-- The announced length is impossible. -/
  | broken (cause : Error)
  /-- An order, or the fault in its body, and what lies behind it. -/
  | order (outcome : Except Error ServerOrder) (rest : Bytes)
  deriving Repr

/-- Takes the first order off a stream. -/
def nextOrder (stream : Bytes) : Framed :=
  match announcedLength? stream with
  | none => .waiting
  | some length =>
    if length < headerSize then .broken (.badLength length)
    else if stream.length < length then .waiting
    else .order (ServerOrder.decode (stream.take length)) (stream.drop length)

namespace Framed

/-- What a step hands out: an order, a failure, or nothing yet. -/
def outcome : Framed → Except Error (Option ServerOrder)
  | waiting => .ok none
  | broken cause => .error cause
  | order result _ => result.map some

/-- What a step leaves of the stream. -/
def rest (stream : Bytes) : Framed → Bytes
  | order _ rest => rest
  | _ => stream

end Framed

/-- The failure of a stream that ends inside an order. -/
def bytesRemaining : Error := .streamFailed "bytes remaining on stream"

/-- Takes the next order off a stream that has ended. -/
def lastOrder (stream : Bytes) : Framed :=
  match nextOrder stream with
  | .waiting => if stream.isEmpty then .waiting else .broken bytesRemaining
  | step => step

end RemotePrograms
