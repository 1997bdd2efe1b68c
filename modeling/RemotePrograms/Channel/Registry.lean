import RemotePrograms.Channel.Context

/-!
# `RemotePrograms.Channel.Registry`: the channels of one connection

A `Registry` knows which channels its connection can support, for which of them the support is
loaded, who wants to hear of new channels, every context that was made, and which context a
channel's name stands for at present. A context stays in the list after its channel is gone, so
whoever kept its number can still reach it. `connected` has at most one entry for each name.
-/

set_option autoImplicit false

namespace RemotePrograms

/-- Who is told of a new channel. -/
inductive Subscriber where
  /-- Support for remote programs, on behalf of a session. -/
  | remotePrograms (session : Session)
  /-- Somebody else. -/
  | custom (id : Nat)
  deriving DecidableEq, Repr

/-- The channels of one connection. -/
structure Registry where
  available : List String
  loaded : List String := []
  subscribers : List Subscriber := []
  contexts : List Context := []
  connected : List (String × ContextId) := []
  deriving DecidableEq, Repr

namespace Registry

/-- Whether the support for a channel is loaded. -/
def isLoaded (r : Registry) (name : String) : Bool :=
  r.loaded.contains name

/-- Loads the support for a channel. Loading it again changes nothing. -/
def load (r : Registry) (name : String) : Except Error Registry :=
  if r.available.contains name then
    if r.isLoaded name then .ok r else .ok { r with loaded := r.loaded ++ [name] }
  else .error (.unsupported name)

/-- Puts somebody at the end of the list of those who are told of new channels. -/
def subscribe (r : Registry) (subscriber : Subscriber) : Registry :=
  { r with subscribers := r.subscribers ++ [subscriber] }

/-- The context that a channel's name stands for at present. -/
def channel? (r : Registry) (name : String) : Option ContextId :=
  r.connected.lookup name

/-- A context by its number. -/
def context? (r : Registry) (id : ContextId) : Option Context :=
  r.contexts[id]?

/-- Makes a context. Its number is that of the next free place. -/
def create (r : Registry) (context : Context) : Registry :=
  { r with contexts := r.contexts ++ [context] }

/-- The number that the next context gets. -/
def nextContext (r : Registry) : ContextId :=
  r.contexts.length

/-- Changes a context. -/
def update (r : Registry) (id : ContextId) (f : Context → Context) : Registry :=
  { r with contexts := r.contexts.modify id f }

/-- Puts a context into a phase. -/
def setPhase (r : Registry) (id : ContextId) (phase : Phase) : Registry :=
  r.update id fun context => { context with phase }

/-- Lets a channel's name stand for a context, in place of what it stood for before. -/
def publish (r : Registry) (name : String) (id : ContextId) : Registry :=
  { r with connected := (name, id) :: r.connected.filter (·.1 ≠ name) }

/-- Takes a channel away and closes its context. -/
def disconnect (r : Registry) (name : String) : Option Registry :=
  (r.channel? name).map fun id =>
    { r with connected := r.connected.filter (·.1 ≠ name) }.update id fun context =>
      { context with phase := context.phase.close }

/-- The registry in diagnostics. -/
def diagnostic (r : Registry) : String :=
  "ChannelManager \x7b available: " ++ Text.bracketed (r.available.map Text.quoted)
    ++ ", loaded: " ++ Text.bracketed (r.loaded.map Text.quoted)
    ++ ", subscribers: " ++ toString r.subscribers.length
    ++ ", channels: " ++ toString r.connected.length ++ " \x7d"

end Registry

end RemotePrograms
