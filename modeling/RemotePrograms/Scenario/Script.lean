import RemotePrograms.Channel.Operation

/-!
# `RemotePrograms.Scenario.Script`: scripts for the outside of a connection

A script says what the outside of a connection does: which operations it calls, one after
another, and how its transports, sessions and subscribers behave when an operation reaches them.
They can answer, and before that they can call operations of their own, which is again a list of
steps. Contexts are named by their `Slot`, the how-manieth attempt to make a context it was,
because a script is written before any of them exists.
-/

set_option autoImplicit false

namespace RemotePrograms.Scenario

/-- The how-manieth attempt to make a context. -/
abbrev Slot := Nat

/-- How a transport answers some of the records that it is to send. -/
structure Rule (σ : Type) where
  /-- The type of the records that the rule is about. -/
  type : Option OrderType
  /-- How many records of that type go before the rule takes effect. -/
  skip : Nat
  /-- What the transport does before it answers. -/
  hooks : List σ
  /-- What it answers. -/
  reply : Except Error Unit

/-- What carries the records of a context. -/
inductive Carrier (σ : Type) where
  /-- A queue of PDUs. -/
  | stream
  /-- A transport that answers by the first rule that fits and otherwise well. It may watch
  whether the write lock of a session is held. -/
  | ruled (rules : List (Rule σ)) (watched : Option SessionId)

/-- Who is to handle the orders of a context. -/
inductive Callbacks where
  | remotePrograms
  /-- Callbacks that note every order and give this answer. -/
  | noting (reply : Except Error Unit)

/-- What a script does with one context. -/
inductive Request where
  /-- Looks at it. -/
  | view
  /-- Asks for its diagnostics. -/
  | diagnostic
  | attach (session : SessionId)
  | install (callbacks : Callbacks)
  | arm (session : SessionId)
  | dispatch (order : Except Error ServerOrder)
  | sendOpening
  | report (order : LaunchReport)
  | move (transition : Transition)
  | put (phase : Phase)

/-- One step of a script. -/
inductive Step where
  | load (name : String)
  /-- Asks whether the support for a channel is loaded. -/
  | isLoaded (name : String)
  | loadRemotePrograms (session : SessionId)
  /-- Enters a subscriber, who notes each new channel under a label and then acts. -/
  | subscribe (label : String) (actions : List Step)
  | connect (name : String) (carrier : Carrier Step)
  | create (name : String) (carrier : Carrier Step)
  | disconnect (name : String)
  /-- Asks which context a name stands for. -/
  | channel (name : String)
  | dispatch (name : String) (order : Except Error ServerOrder)
  /-- Asks for the diagnostics of the connection. -/
  | diagnostic
  /-- Asks for the diagnostics of a session. -/
  | sessionDiagnostic (session : SessionId)
  | abort (session : SessionId) (reason : AbortReason) (message : String)
  /-- Takes steps while holding the write lock of a session. -/
  | locked (session : SessionId) (actions : List Step)
  /-- Stops reading the queue of a context's records. -/
  | closeStream (slot : Slot)
  /-- Does something with a context. -/
  | onSlot (slot : Slot) (request : Request)
  /-- Does something with the context that is being shown to a subscriber. -/
  | onShown (request : Request)

/-- A session of a script. -/
structure Party where
  settings : Settings := {}
  /-- What the session does when it is ended. -/
  onAbort : List Step := []

/-- A connection with the sessions that it works for. -/
structure Setting where
  available : List String
  parties : List Party := []

end RemotePrograms.Scenario
