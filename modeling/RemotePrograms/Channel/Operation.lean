import RemotePrograms.Channel.Registry

/-!
# `RemotePrograms.Channel.Operation`: what is done to channels, stretch by stretch

Some operations reach outside while they run: a handshake sends records over a transport, a
failed execution ends a session, a new channel is shown to its subscribers. While the outside is
busy with that, it may start other operations, on the same channel too. So an operation is cut
into stretches. `Operation.start` is its first one. An operation that is not finished after a
stretch is an `Activity`, which says what is left of it. Some activities wait for the outside,
and `Activity.answer` goes on with the reply; the others go on by themselves, by
`Activity.resume`. No stretch is interrupted, and between any two of them everything else may
happen.

The heart is the opening: `Settings.opening` lists the four records with which a client answers
a handshake, and each of them is sent under the write lock of its session, which is given back
before the next one is tried.
-/

set_option autoImplicit false

namespace RemotePrograms

/-- The records with which a client answers a handshake, in the order in which they are sent. -/
def Settings.opening (s : Settings) : List ClientOrder :=
  [.handshake .client,
    .clientStatus {},
    .systemParameters (.ofDesktop s.width s.height),
    .launch ⟨.expandArguments, s.program, s.workingDir, s.arguments⟩]

/-- What a session is told when its program could not be executed. -/
def launchFailedMessage : String := "Failed to execute RAIL command."

/-- A call on one context. -/
inductive ContextCall where
  /-- Attaches a session. -/
  | attach (session : Session)
  /-- Sets the handler. -/
  | install (handler : Handler)
  /-- Tells the support for remote programs that the channel is connected. -/
  | arm (session : Session)
  /-- Hands in an order of the server. -/
  | dispatch (order : ServerOrder)
  /-- Sends the opening records without regard to the phase. -/
  | sendOpening
  /-- Hands in the server's report on the program. -/
  | report (order : LaunchReport)
  /-- Moves the phase on. -/
  | move (transition : Transition)
  /-- Puts the context into a phase. -/
  | put (phase : Phase)
  deriving DecidableEq, Repr

/-- What can be done to the channels of a connection. -/
inductive Operation where
  /-- Loads the support for a channel. -/
  | load (name : String)
  /-- Loads the support for remote programs, on behalf of a session. -/
  | loadRemotePrograms (session : Session)
  /-- Puts somebody on the list of those who are told of new channels. -/
  | subscribe (id : Nat)
  /-- Connects a channel over a transport. -/
  | connect (name : String) (transport : TransportId)
  /-- Makes a context that belongs to no name. -/
  | create (name : String) (transport : TransportId)
  /-- Takes a channel away. -/
  | disconnect (name : String)
  /-- Hands an order of the server to the channel of a name. -/
  | dispatch (name : String) (order : ServerOrder)
  /-- Calls one context. -/
  | call (context : ContextId) (request : ContextCall)
  /-- Ends a session. -/
  | abort (session : SessionId) (reason : AbortReason) (message : String)
  /-- Takes the write lock of a session and keeps it until the outside answers. -/
  | lock (session : SessionId)
  deriving DecidableEq, Repr

/-- What a successful operation returns. -/
inductive Value where
  | done
  | flag (b : Bool)
  | context (id : ContextId)
  deriving DecidableEq, Repr

/-- What an operation returns. -/
abbrev Result := Except Error Value

/-- Something that an operation asks of the outside. -/
inductive Contact where
  /-- A transport is to send a record on behalf of a context. -/
  | send (context : ContextId) (transport : TransportId) (order : ClientOrder)
  /-- Callbacks are to handle an order. -/
  | callback (context : ContextId) (handler : Nat) (order : ServerOrder)
  /-- A session is ended. -/
  | abort (session : SessionId) (reason : AbortReason) (message : String)
  /-- A subscriber is shown a new channel. -/
  | notify (context : ContextId) (subscriber : Nat)
  /-- The write lock of a session is taken. -/
  | locked (session : SessionId)
  deriving DecidableEq, Repr

/-- Whose records an opening sends, and over what. -/
structure Opening where
  context : ContextId
  transport : TransportId
  session : Session
  /-- Whether the phase of the context follows the outcome. -/
  guarded : Bool
  deriving DecidableEq, Repr

/-- What is left of an operation that has begun. -/
inductive Activity where
  /-- Between two records of an opening, or before the first one or behind the last one. -/
  | opening (opening : Opening) (left : List ClientOrder)
  /-- A record is with the transport. -/
  | sending (opening : Opening) (order : ClientOrder) (left : List ClientOrder)
  /-- Callbacks have an order. -/
  | calling
  /-- A session is being ended. -/
  | aborting
  /-- A new channel waits to be shown to more subscribers. -/
  | notifying (name : String) (context : ContextId) (left : List Subscriber)
  /-- A subscriber looks at a new channel. -/
  | notified (name : String) (context : ContextId) (left : List Subscriber)
  /-- Somebody wants a write lock. -/
  | acquiring (session : SessionId)
  /-- Somebody has a write lock. -/
  | holding (session : SessionId)
  deriving DecidableEq, Repr

namespace Activity

/-- The session whose write lock an activity holds. -/
def lock? : Activity → Option SessionId
  | sending o _ _ => some o.session.id
  | holding session => some session
  | _ => none

/-- Whether an activity waits for the outside. -/
def isOutside : Activity → Bool
  | sending .. | calling | aborting | notified .. | holding _ => true
  | _ => false

/-- A bound on the stretches that are left of an activity. -/
def stretches : Activity → Nat
  | opening _ left => 2 * left.length + 1
  | sending _ _ left => 2 * left.length + 2
  | notifying _ _ left => 2 * left.length + 1
  | notified _ _ left => 2 * left.length + 2
  | acquiring _ => 2
  | calling | aborting | holding _ => 1

end Activity

/-- How a stretch ends. -/
inductive Progress where
  /-- The operation is finished. -/
  | returned (result : Result)
  /-- The operation goes on by itself. -/
  | continues (activity : Activity)
  /-- The operation goes on when the outside has answered. -/
  | waits (contact : Contact) (activity : Activity)
  deriving Repr

/-- A stretch changes the registry and ends somehow. -/
abbrev Stretch := Registry × Progress

namespace Registry

/-- Ends an operation successfully. -/
def done (r : Registry) : Stretch := (r, .returned (.ok .done))

/-- Ends an operation with a failure. -/
def refuse (r : Registry) (cause : Error) : Stretch := (r, .returned (.error cause))

/-- Ends an opening whose record was not sent, or that could not send any. -/
def failOpening (r : Registry) (id : ContextId) (guarded : Bool) (cause : Error) : Stretch :=
  (if guarded then r.setPhase id .failed else r).refuse cause

/-- Ends an opening whose records were all sent. -/
def completeOpening (r : Registry) (o : Opening) : Stretch :=
  if o.guarded then
    match r.context? o.context with
    | none => r.done
    | some context =>
      match context.phase.completeHandshake with
      | .ok phase => (r.setPhase o.context phase).done
      | .error cause => r.refuse cause
  else r.done

/-- Begins an opening, for which the context needs a session. -/
def beginOpening (r : Registry) (id : ContextId) (context : Context) (guarded : Bool) : Stretch :=
  match context.session with
  | none => r.failOpening id guarded (.notAllowed "rail channel has no session attached")
  | some session =>
    (r, .continues (.opening ⟨id, context.transport, session, guarded⟩ session.settings.opening))

/-- Handles a handshake of the server. -/
def handshake (r : Registry) (id : ContextId) (context : Context) : Stretch :=
  match context.phase.beginHandshake with
  | .error cause => r.refuse cause
  | .ok phase => (r.setPhase id phase).beginOpening id context true

/-- Handles the server's report on the program. A failure ends the channel and its session, and
is no failure of the handling. -/
def report (r : Registry) (id : ContextId) (context : Context) (order : LaunchReport) :
    Stretch :=
  if order.result.isSuccess then r.done
  else
    let r := r.setPhase id .failed
    match context.session with
    | none => r.done
    | some session =>
      (r, .waits (.abort session.id .peerUnavailable launchFailedMessage) .aborting)

/-- Hands an order of the server to the handler of a context. Without a handler the order is
dropped, and so is an order without a meaning. -/
def handle (r : Registry) (id : ContextId) (context : Context) (order : ServerOrder) : Stretch :=
  match context.handler, order with
  | none, _ => r.done
  | some _, .other _ _ => r.done
  | some (.custom handler), _ => (r, .waits (.callback id handler order) .calling)
  | some .remotePrograms, .handshake _ => r.handshake id context
  | some .remotePrograms, .extendedHandshake _ => r.handshake id context
  | some .remotePrograms, .launchReport report => r.report id context report

/-- Calls a context. -/
def call (r : Registry) (id : ContextId) (context : Context) : ContextCall → Stretch
  | .attach session => (r.update id fun c => { c with session := some session }).done
  | .install handler =>
    match context.install handler with
    | .ok installed => (r.update id fun _ => installed).done
    | .error cause => r.refuse cause
  | .arm session => (r.update id (Context.arm session)).done
  | .dispatch order => r.handle id context order
  | .sendOpening => r.beginOpening id context false
  | .report order => r.report id context order
  | .move transition =>
    match context.phase.step transition with
    | .ok phase => (r.setPhase id phase).done
    | .error cause => r.refuse cause
  | .put phase => (r.setPhase id phase).done

/-- Connects a channel as far as its first subscriber. -/
def beginConnect (r : Registry) (name : String) (transport : TransportId) : Stretch :=
  if r.isLoaded name then
    (r.create { name, transport, phase := .channelConnected },
      .continues (.notifying name r.nextContext r.subscribers))
  else r.refuse (.noChannel name)

end Registry

/-- The first stretch of an operation. A number that names no context is left alone. -/
def Operation.start (r : Registry) : Operation → Stretch
  | load name =>
    match r.load name with
    | .ok r => r.done
    | .error cause => r.refuse cause
  | loadRemotePrograms session =>
    match r.load remoteProgramsChannel with
    | .ok r => (r.subscribe (.remotePrograms session), .returned (.ok (.flag true)))
    | .error _ => (r, .returned (.ok (.flag false)))
  | subscribe id => (r.subscribe (.custom id)).done
  | connect name transport => r.beginConnect name transport
  | create name transport =>
    (r.create { name, transport }, .returned (.ok (.context r.nextContext)))
  | disconnect name =>
    match r.disconnect name with
    | some r => (r, .returned (.ok (.flag true)))
    | none => (r, .returned (.ok (.flag false)))
  | dispatch name order =>
    match r.channel? name with
    | none => r.refuse (.noChannel name)
    | some id =>
      match r.context? id with
      | none => r.refuse (.noChannel name)
      | some context => r.handle id context order
  | call id request =>
    match r.context? id with
    | none => r.done
    | some context => r.call id context request
  | abort session reason message => (r, .waits (.abort session reason message) .aborting)
  | lock session => (r, .continues (.acquiring session))

namespace Activity

/-- The next stretch of an activity that does not wait for the outside. `free` says whose write
lock is free. An activity that needs a lock which is not free stays where it is. -/
def resume (free : SessionId → Bool) (r : Registry) : Activity → Stretch
  | opening o [] => r.completeOpening o
  | opening o (order :: left) =>
    if free o.session.id then
      (r, .waits (.send o.context o.transport order) (.sending o order left))
    else (r, .continues (.opening o (order :: left)))
  | notifying name id [] => (r.publish name id, .returned (.ok (.context id)))
  | notifying name id (.remotePrograms session :: left) =>
    (r.update id (Context.arm session), .continues (.notifying name id left))
  | notifying name id (.custom subscriber :: left) =>
    (r, .waits (.notify id subscriber) (.notified name id left))
  | acquiring session =>
    if free session then (r, .waits (.locked session) (.holding session))
    else (r, .continues (.acquiring session))
  | activity => (r, .continues activity)

/-- The next stretch of an activity to which the outside has replied. Only a transport and
callbacks can fail; what other parts of the outside reply is of no account. -/
def answer (reply : Except Error Unit) (r : Registry) : Activity → Stretch
  | sending o _ left =>
    match reply with
    | .ok () => (r, .continues (.opening o left))
    | .error cause => r.failOpening o.context o.guarded cause
  | calling =>
    match reply with
    | .ok () => r.done
    | .error cause => r.refuse cause
  | aborting => r.done
  | notified name id left => (r, .continues (.notifying name id left))
  | holding _ => r.done
  | activity => (r, .continues activity)

end Activity

end RemotePrograms
