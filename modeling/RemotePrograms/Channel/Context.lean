import RemotePrograms.Channel.Phase
import RemotePrograms.Session

/-!
# `RemotePrograms.Channel.Context`: one channel

A `Context` is the state of one channel: its name, the transport that carries its records, the
session that it works for, who handles the server's orders, and its phase. A fresh context has
neither a session nor a handler. `Context.install` sets the handler, and refuses when the phase
cannot go on to waiting for a handshake. `Context.arm` makes a channel for remote programs of
it: the handler and the session are set together or not at all, and only if the channel has the
right name.
-/

set_option autoImplicit false

namespace RemotePrograms

/-- What names a context. -/
abbrev ContextId := Nat

/-- What names a transport. -/
abbrev TransportId := Nat

/-- Who handles the orders that a server sends on a channel. -/
inductive Handler where
  /-- The handler for remote programs. -/
  | remotePrograms
  /-- Callbacks of somebody else. -/
  | custom (id : Nat)
  deriving DecidableEq, Repr

/-- The name of the channel for remote programs. -/
def remoteProgramsChannel : String := "rail"

/-- The state of one channel. -/
structure Context where
  name : String
  transport : TransportId
  session : Option Session := none
  handler : Option Handler := none
  phase : Phase := .disconnected
  deriving DecidableEq, Repr

namespace Context

/-- The phase from which a context goes on to wait for a handshake. Setting a handler on a
context that nobody connected counts as its connection. -/
def awaitingPhase : Phase → Except Error Phase
  | .disconnected => .ok .awaitingHandshake
  | phase => phase.awaitHandshake

/-- Sets the handler, after which the channel waits for a handshake. -/
def install (handler : Handler) (context : Context) : Except Error Context :=
  (awaitingPhase context.phase).map fun phase => { context with phase, handler := some handler }

/-- Makes a channel for remote programs of a context, on behalf of a session. A context with
another name, or in a phase that does not allow it, stays as it is. -/
def arm (session : Session) (context : Context) : Context :=
  if context.name = remoteProgramsChannel then
    match context.install .remotePrograms with
    | .ok installed => { installed with session := some session }
    | .error _ => context
  else context

/-- The context in diagnostics. -/
def diagnostic (context : Context) : String :=
  "ChannelContext \x7b name: " ++ Text.quoted context.name
    ++ ", session: " ++ Text.ofBool context.session.isSome
    ++ ", events: " ++ Text.ofBool context.handler.isSome
    ++ ", phase: " ++ context.phase.name ++ " \x7d"

end Context

end RemotePrograms
