import RemotePrograms.Order.Encode

/-!
# `RemotePrograms.Stream.Outbox`: records on their way to a stream

A channel over a byte stream sends by putting PDUs into a queue, and somebody else writes the
queue to the stream. The PDUs of an order are all encoded before the first of them is queued. They
are then queued one by one, and the first one that the queue does not take ends the sending. An
order without a PDU is sent in any case, for there is nothing that the queue could refuse.
-/

set_option autoImplicit false

namespace RemotePrograms

/-- PDUs that wait to be written. -/
structure Outbox where
  queue : List Bytes := []
  /-- Whether somebody still reads the queue. -/
  isOpen : Bool := true
  deriving DecidableEq, Repr

namespace Outbox

/-- The code of a transport whose queue nobody reads. -/
def notConnected : UInt32 := 4

/-- Queues the PDUs of an order of this type, one after another. -/
def push (type : OrderType) : List Bytes → Outbox → Except Error Unit × Outbox
  | [], box => (.ok (), box)
  | pdu :: pdus, box =>
    if box.isOpen then push type pdus { box with queue := box.queue ++ [pdu] }
    else (.error (.sendFailed type notConnected), box)

/-- Sends an order. An order that cannot be encoded is reported as such whether or not the queue
is open. -/
def send (order : ClientOrder) (box : Outbox) : Except Error Unit × Outbox :=
  match order.encode with
  | .ok pdus => push order.type pdus box
  | .error cause => (.error cause, box)

/-- Stops reading the queue. What is in it stays unread. -/
def shut (box : Outbox) : Outbox :=
  { box with isOpen := false }

end Outbox

end RemotePrograms
