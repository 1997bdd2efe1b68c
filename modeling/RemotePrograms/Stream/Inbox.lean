import RemotePrograms.Order.Framing

/-!
# `RemotePrograms.Stream.Inbox`: orders on their way from a stream

Octets arrive in pieces, whose borders mean nothing. An `Inbox` holds those that were read and
not yet taken up by an order, and the arrivals that were not read yet. `Inbox.poll` reads on
until it can hand something out: an order, a failure, or the end of the stream. Octets that are
left at the end are a failure. A read that fails gives its own text.
-/

set_option autoImplicit false

namespace RemotePrograms

/-- What the next read of a stream finds. -/
inductive Arrival where
  | octets (piece : Bytes)
  | failure (text : String)
  | ended
  deriving DecidableEq, Repr

/-- How many octets an arrival has, or one if it is something else. -/
def Arrival.size : Arrival → Nat
  | octets piece => piece.length
  | _ => 1

/-- The side of a stream that is read. -/
structure Inbox where
  buffer : Bytes := []
  arrivals : List Arrival := []
  deriving DecidableEq, Repr

/-- What an inbox hands out. -/
inductive Item where
  | order (received : ServerOrder)
  | failure (cause : Error)
  | ended
  deriving DecidableEq, Repr

/-- An order, or the fault in it. -/
def Item.ofOutcome : Except Error ServerOrder → Item
  | .ok received => .order received
  | .error cause => .failure cause

namespace Inbox

/-- Reads on until there is something to hand out, with these octets read before. -/
def pollFrom (buffer : Bytes) (arrivals : List Arrival) : Option Item × Inbox :=
  match nextOrder buffer with
  | .order outcome rest => (some (.ofOutcome outcome), ⟨rest, arrivals⟩)
  | .broken cause => (some (.failure cause), ⟨buffer, arrivals⟩)
  | .waiting =>
    match arrivals with
    | [] => (none, ⟨buffer, []⟩)
    | .octets piece :: later => pollFrom (buffer ++ piece) later
    | .failure text :: later => (some (.failure (.streamFailed text)), ⟨buffer, later⟩)
    | .ended :: later =>
      (some (if buffer.isEmpty then .ended else .failure bytesRemaining), ⟨buffer, .ended :: later⟩)

/-- Reads on until there is something to hand out, or nothing more has arrived. -/
def poll (box : Inbox) : Option Item × Inbox :=
  pollFrom box.buffer box.arrivals

/-- Puts an arrival behind the others. -/
def arrive (arrival : Arrival) (box : Inbox) : Inbox :=
  { box with arrivals := box.arrivals ++ [arrival] }

/-- A bound on the items that an inbox can hand out before its end: the octets, and the arrivals
that are none. -/
def size (box : Inbox) : Nat :=
  box.arrivals.foldl (fun n arrival => n + arrival.size) box.buffer.length

end Inbox

end RemotePrograms
