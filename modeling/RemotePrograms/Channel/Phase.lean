import RemotePrograms.Error

/-!
# `RemotePrograms.Channel.Phase`: how far a channel has come

A channel connects, waits for the server's handshake, answers it and then runs. It may shake
hands again while it runs. It ends in `terminated`, either because something failed or because
it was closed, and a failure stays a failure when the channel is closed later. `Phase.step` is
the whole table: a transition that the phase does not allow is a protocol violation and changes
nothing.
-/

set_option autoImplicit false

namespace RemotePrograms

/-- Why a channel has ended. -/
inductive Ending where
  | failed
  | closed
  deriving DecidableEq, Repr

/-- How far a channel has come. -/
inductive Phase where
  | disconnected
  | channelConnected
  | awaitingHandshake
  | handshakeInFlight
  | running
  | terminated (ending : Ending)
  deriving DecidableEq, Repr

/-- What moves a channel on. -/
inductive Transition where
  | connect
  | awaitHandshake
  | beginHandshake
  | completeHandshake
  | fail
  | close
  deriving DecidableEq, Repr

namespace Phase

/-- The name of a phase in messages. -/
def name : Phase → String
  | disconnected => "Disconnected"
  | channelConnected => "ChannelConnected"
  | awaitingHandshake => "AwaitingHandshake"
  | handshakeInFlight => "HandshakeInFlight"
  | running => "Running"
  | terminated .failed => "Terminated(Failed)"
  | terminated .closed => "Terminated(Closed)"

/-- Whether the channel has shaken hands. -/
def isRunning : Phase → Bool
  | running => true
  | _ => false

/-- Whether the channel has ended. -/
def isTerminated : Phase → Bool
  | terminated _ => true
  | _ => false

/-- Only a channel that is not connected can connect. -/
def connect : Phase → Except Error Phase
  | disconnected => .ok channelConnected
  | _ => .error (.notAllowed "cannot connect: channel not in Disconnected state")

/-- Waiting for the handshake starts on a connected channel. -/
def awaitHandshake : Phase → Except Error Phase
  | channelConnected => .ok awaitingHandshake
  | _ =>
    .error (.notAllowed "cannot await handshake: channel not in ChannelConnected state")

/-- A handshake begins on a channel that waits for one, and again on one that runs. -/
def beginHandshake : Phase → Except Error Phase
  | awaitingHandshake => .ok handshakeInFlight
  | running => .ok handshakeInFlight
  | _ => .error (.notAllowed "cannot handshake: channel not awaiting a handshake")

/-- A handshake that is in flight can complete. -/
def completeHandshake : Phase → Except Error Phase
  | handshakeInFlight => .ok running
  | _ => .error (.notAllowed "cannot complete handshake: no handshake in flight")

/-- The phase of a channel that something went wrong on, wherever it stood. -/
def failed : Phase := terminated .failed

/-- Closing ends a channel, but does not hide that it failed. -/
def close : Phase → Phase
  | terminated .failed => terminated .failed
  | _ => terminated .closed

/-- The phase after a transition. -/
def step : Transition → Phase → Except Error Phase
  | .connect, phase => phase.connect
  | .awaitHandshake, phase => phase.awaitHandshake
  | .beginHandshake, phase => phase.beginHandshake
  | .completeHandshake, phase => phase.completeHandshake
  | .fail, _ => .ok failed
  | .close, phase => .ok phase.close

end Phase

end RemotePrograms
