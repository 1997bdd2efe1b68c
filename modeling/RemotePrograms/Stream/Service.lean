import RemotePrograms.Channel.Machine
import RemotePrograms.Stream.Inbox
import RemotePrograms.Stream.Outbox

/-!
# `RemotePrograms.Stream.Service`: one channel served over one stream

A `Service` reads a server's orders off a stream, hands each of them to a channel, and writes to
the stream what the channel queues in return. It works in rounds. In every round two things can
be ready, something to read or something to write, and which of them it turns to is not settled
here: `Service.round` takes the branch as an argument. A branch that is not ready changes
nothing. Between the rounds anything may arrive on the stream, and others may act on the channels
and on the queue, so a run is a list of moves, `Service.run`.

The service ends in one of four ways. Nobody can queue anything any more: it ends well. The
stream ends between two orders: it writes what is queued and ends well. An order could not be
handled: it writes what is queued and ends with that failure. A read or a write fails: it ends
at once with that failure, and what is queued stays unwritten. A write that fails while the
queue is being emptied at the end takes the place of the outcome that the service would have
had.
-/

set_option autoImplicit false

namespace RemotePrograms

/-- How a session was ended. -/
structure Abort where
  session : SessionId
  reason : AbortReason
  message : String
  deriving DecidableEq, Repr

/-- One channel served over one stream. -/
structure Service where
  machine : Machine
  /-- The channel that the orders are handed to. -/
  channel : String
  /-- Whether somebody outside the channels keeps a way to queue records. -/
  held : Bool := false
  inbox : Inbox := {}
  outbox : Outbox := {}
  /-- The text with which every write fails, once writes fail. -/
  writeFailure : Option String := none
  /-- The PDUs that were written, in order. -/
  written : List Bytes := []
  /-- The sessions that were ended, in order. -/
  aborts : List Abort := []
  /-- How the service ended. -/
  outcome : Option (Except Error Unit) := none

/-- What a service turns to in a round. -/
inductive Branch where
  | write
  | read
  deriving DecidableEq, Repr

namespace Service

/-- The surroundings of a channel over a stream: records go into the queue, ends of sessions are
noted, and nobody else is there to answer. -/
def reply : Contact → Outbox × List Abort → Except Error Unit × (Outbox × List Abort)
  | .send _ _ order, (box, aborts) =>
    let (answer, box) := box.send order
    (answer, (box, aborts))
  | .abort session reason message, (box, aborts) =>
    (.ok (), (box, aborts ++ [⟨session, reason, message⟩]))
  | _, outside => (.ok (), outside)

/-- Runs an operation on the channels. Nothing else is under way on them, so no write lock is
held and the operation comes to its end. -/
def perform (operation : Operation) (s : Service) : Service × Result :=
  let (machine, (outbox, aborts), result) :=
    s.machine.perform reply operation (s.outbox, s.aborts)
  ({ s with machine, outbox, aborts }, result.getD (.ok .done))

/-- Whether anybody can still queue a record. -/
def hasSender (s : Service) : Bool :=
  s.held || !s.machine.registry.connected.isEmpty

/-- Ends the service. -/
def finish (outcome : Except Error Unit) (s : Service) : Service :=
  { s with outbox := s.outbox.shut, outcome := some outcome }

/-- Writes what is queued and ends the service. -/
def drain (outcome : Except Error Unit) (s : Service) : Service :=
  match s.outbox.queue, s.writeFailure with
  | [], _ => s.finish outcome
  | _ :: later, some text =>
    { s with outbox := { s.outbox with queue := later } }.finish (.error (.streamFailed text))
  | queue, none =>
    { s with
      outbox := { s.outbox with queue := [] }
      written := s.written ++ queue }.finish outcome

/-- Writes one PDU, or ends the service if there will never be one again. -/
def write (s : Service) : Service :=
  match s.outbox.queue, s.writeFailure with
  | [], _ => if s.hasSender then s else s.finish (.ok ())
  | _ :: later, some text =>
    { s with outbox := { s.outbox with queue := later } }.finish (.error (.streamFailed text))
  | pdu :: later, none =>
    { s with
      outbox := { s.outbox with queue := later }
      written := s.written ++ [pdu] }

/-- Hands an order to the channel. -/
def handle (order : ServerOrder) (s : Service) : Service :=
  match s.perform (.dispatch s.channel order) with
  | (s, .ok _) => s
  | (s, .error cause) => s.drain (.error cause)

/-- Takes up one item of the stream, if one can be read. -/
def read (s : Service) : Service :=
  match s.inbox.poll with
  | (none, inbox) => { s with inbox }
  | (some (.order order), inbox) => { s with inbox }.handle order
  | (some (.failure cause), inbox) => { s with inbox }.finish (.error cause)
  | (some .ended, inbox) => { s with inbox }.drain (.ok ())

/-- One round. A service that has ended does nothing. -/
def round (branch : Branch) (s : Service) : Service :=
  match s.outcome, branch with
  | some _, _ => s
  | none, .write => s.write
  | none, .read => s.read

/-- What can happen to a service. -/
inductive Move where
  /-- The service has a round. -/
  | round (branch : Branch)
  /-- Something arrives on the stream. -/
  | arrive (arrival : Arrival)
  /-- Writes to the stream begin to fail. -/
  | failWrites (text : String)
  /-- Somebody else queues an order. -/
  | send (order : ClientOrder)
  /-- The way to queue records that was kept beside the channels is given up. -/
  | release
  /-- Somebody else runs an operation on the channels. -/
  | perform (operation : Operation)

/-- One move, with what it gives back to whoever made it. -/
def step (s : Service) : Move → Service × Result
  | .round branch => (s.round branch, .ok .done)
  | .arrive arrival => ({ s with inbox := s.inbox.arrive arrival }, .ok .done)
  | .failWrites text => ({ s with writeFailure := some text }, .ok .done)
  | .send order =>
    let (answer, outbox) := s.outbox.send order
    ({ s with outbox }, answer.map fun () => .done)
  | .release => ({ s with held := false }, .ok (.flag s.held))
  | .perform operation => s.perform operation

/-- A run: the moves one after another. -/
def run (s : Service) (moves : List Move) : Service :=
  moves.foldl (fun s move => (s.step move).1) s

/-- Whether a branch is ready. -/
def isReady (s : Service) : Branch → Bool
  | .write => s.outcome.isNone && (!s.outbox.queue.isEmpty || !s.hasSender)
  | .read => s.outcome.isNone && s.inbox.poll.1.isSome

/-- Turns to one branch for as long as it is ready, at most so many times. -/
def exhaust (branch : Branch) : Nat → Service → Service
  | 0, s => s
  | fuel + 1, s => if s.isReady branch then exhaust branch fuel (s.round branch) else s

/-- Runs rounds until nothing is ready: first all that can be read, then all that is queued. This is
one schedule of many. When both branches are ready, a service may turn to either of them in every
single round, and how much is written before a read fails depends on what it turns to. `run` covers
all of these schedules. -/
def settle (s : Service) : Service :=
  let s := s.exhaust .read (s.inbox.size + 1)
  s.exhaust .write (s.outbox.queue.length + 1)

/-- A service whose channel for remote programs is connected, with support for remote programs
on behalf of a session or with nothing but the channel. -/
def start (session : Option Session) (channel : String) (held : Bool) : Service :=
  let machine := .ofRegistry { available := [remoteProgramsChannel] }
  let load := match session with
    | some session => .loadRemotePrograms session
    | none => .load remoteProgramsChannel
  let s : Service := { machine, channel, held }
  ((s.perform load).1.perform (.connect remoteProgramsChannel 0)).1

end Service

end RemotePrograms
