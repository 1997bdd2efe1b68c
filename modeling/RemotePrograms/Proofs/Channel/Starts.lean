import RemotePrograms.Proofs.Channel.Steps

/-!
# `RemotePrograms.Proofs.Channel.Starts`: the first stretch of an operation

`Operation.start` decides many things at once: whether support is available or loaded, whether a
channel or a context exists. `Operation.Starts` lists what can come of it, and `Operation.starts`
says that nothing else can. All that is refused falls into one case, in which nothing changes. What
an operation does to the channels is then a matter of one case for each thing that it can do.
`ContextCall.Starts` and `ContextCall.starts` do the same for what is called on a context, and so
for an order that is handed to it.
-/

set_option autoImplicit false

namespace RemotePrograms

/-- What the first stretch of an operation can be. -/
inductive Operation.Starts (r : Registry) : Operation → Stretch → Prop where
  /-- The operation returns at once and nothing changes. Support for remote programs is refused
  only where there is none, and a refusal never speaks of what is not allowed. -/
  | returns {operation : Operation} {result : Result} :
      (∀ id request, operation ≠ .call id request) →
      (∀ session, operation = .loadRemotePrograms session →
        r.available.contains remoteProgramsChannel = false) →
      (∀ text, result ≠ .error (.notAllowed text)) →
      Starts r operation (r, .returned result)
  /-- Support for a channel is loaded. -/
  | loads {name : String} {r' : Registry} :
      r.load name = .ok r' → Starts r (.load name) r'.done
  /-- Support for remote programs is loaded, and the session is registered. -/
  | registers {session : Session} {r' : Registry} :
      r.load remoteProgramsChannel = .ok r' →
      Starts r (.loadRemotePrograms session)
        (r'.subscribe (.remotePrograms session), .returned (.ok (.flag true)))
  /-- Somebody else is registered. -/
  | subscribes {id : Nat} : Starts r (.subscribe id) (r.subscribe (.custom id)).done
  /-- A new channel is about to be shown to the subscribers. -/
  | connects {name : String} {transport : TransportId} :
      r.isLoaded name = true →
      Starts r (.connect name transport)
        (r.create { name, transport, phase := .channelConnected },
          .continues (.notifying name r.nextContext r.subscribers))
  /-- A context is made that belongs to no name. -/
  | creates {name : String} {transport : TransportId} :
      Starts r (.create name transport)
        (r.create { name, transport }, .returned (.ok (.context r.nextContext)))
  /-- A channel is taken away. -/
  | closes {name : String} {r' : Registry} :
      r.disconnect name = some r' →
      Starts r (.disconnect name) (r', .returned (.ok (.flag true)))
  /-- An order is handed to the context of a channel. -/
  | handles {name : String} {order : ServerOrder} {id : ContextId} {context : Context} :
      r.channel? name = some id → r.context? id = some context →
      Starts r (.dispatch name order) (r.handle id context order)
  /-- A context is called. -/
  | calls {id : ContextId} {request : ContextCall} {context : Context} :
      r.context? id = some context → Starts r (.call id request) (r.call id context request)
  /-- A number is called that names no context. -/
  | misses {id : ContextId} {request : ContextCall} :
      r.context? id = none → Starts r (.call id request) r.done
  /-- A session is ended. -/
  | aborts {session : SessionId} {reason : AbortReason} {message : String} :
      Starts r (.abort session reason message) (r, .waits (.abort session reason message) .aborting)
  /-- Somebody wants a write lock. -/
  | locks {session : SessionId} : Starts r (.lock session) (r, .continues (.acquiring session))

namespace Registry

variable {r r' : Registry} {name : String}

/-- Loading support changes nothing but the list of what is loaded, and that only by what is
available. -/
theorem load_cases (h : r.load name = .ok r') :
    r.available.contains name = true ∧ ∃ loaded, r' = { r with loaded } ∧
      ∀ other, loaded.contains other = true → r.loaded.contains other = true ∨ other = name := by
  unfold load at h
  split at h
  · rename_i havailable
    refine ⟨havailable, ?_⟩
    split at h
    · cases h
      exact ⟨r.loaded, rfl, fun other hother => .inl hother⟩
    · cases h
      exact ⟨_, rfl, fun other hother => by simpa using hother⟩
  · cases h

/-- Support that is refused is not available. -/
theorem load_error {cause : Error} (h : r.load name = .error cause) :
    r.available.contains name = false ∧ cause = .unsupported name := by
  unfold load at h
  split at h
  · split at h
    all_goals cases h
  · rename_i hnone
    cases h
    exact ⟨by simpa using hnone, rfl⟩

/-- The end of an opening ends the operation. -/
theorem completeOpening_returns (r : Registry) (o : Opening) :
    ∃ result, (r.completeOpening o).2 = .returned result := by
  unfold completeOpening
  split
  · split
    · exact ⟨_, rfl⟩
    · split
      · exact ⟨_, rfl⟩
      · exact ⟨_, rfl⟩
  · exact ⟨_, rfl⟩

/-- Of two phases that are set one after the other the second one counts. -/
theorem setPhase_setPhase (r : Registry) (id : ContextId) (first second : Phase) :
    (r.setPhase id first).setPhase id second = r.setPhase id second := by
  show { r with contexts := (r.contexts.modify id _).modify id _ } = _
  rw [List.modify_modify_eq]
  rfl

end Registry

/-- The first stretch of an operation is one of these. -/
theorem Operation.starts (r : Registry) (operation : Operation) :
    operation.Starts r (operation.start r) := by
  -- What is refused is refused because there is no such support or no such channel.
  have hrefused : ∀ {operation : Operation} {cause : Error},
      (∀ id request, operation ≠ .call id request) →
      (∀ session, operation ≠ .loadRemotePrograms session) →
      (∀ text, cause ≠ .notAllowed text) → operation.Starts r (r.refuse cause) :=
    fun hcall hload hcause => .returns hcall (fun session h => absurd h (hload session))
      fun text h => hcause text (Except.error.inj h)
  cases operation with
  | load name =>
    cases hload : r.load name with
    | ok r' =>
      simp only [start, hload]
      exact .loads hload
    | error cause =>
      simp only [start, hload, (Registry.load_error hload).2]
      exact hrefused (by simp) (by simp) (by simp)
  | loadRemotePrograms session =>
    cases hload : r.load remoteProgramsChannel with
    | ok r' =>
      simp only [start, hload]
      exact .registers hload
    | error cause =>
      simp only [start, hload]
      exact .returns (by simp) (fun _ _ => (Registry.load_error hload).1) (by simp)
  | subscribe id => exact .subscribes
  | connect name transport =>
    simp only [start, Registry.beginConnect]
    split
    · exact .connects ‹_›
    · exact hrefused (by simp) (by simp) (by simp)
  | create name transport => exact .creates
  | disconnect name =>
    cases hdisconnect : r.disconnect name with
    | some r' =>
      simp only [start, hdisconnect]
      exact .closes hdisconnect
    | none =>
      simp only [start, hdisconnect]
      exact .returns (by simp) (by simp) (by simp)
  | dispatch name order =>
    cases hchannel : r.channel? name with
    | none =>
      simp only [start, hchannel]
      exact hrefused (by simp) (by simp) (by simp)
    | some id =>
      cases hcontext : r.context? id with
      | none =>
        simp only [start, hchannel, hcontext]
        exact hrefused (by simp) (by simp) (by simp)
      | some context =>
        simp only [start, hchannel, hcontext]
        exact .handles hchannel hcontext
  | call id request =>
    cases hcontext : r.context? id with
    | none =>
      simp only [start, hcontext]
      exact .misses hcontext
    | some context =>
      simp only [start, hcontext]
      exact .calls hcontext
  | abort session reason message => exact .aborts
  | lock session => exact .locks

/-! ### Calls on a context -/

/-- What the first stretch of a call on a context can be. -/
inductive ContextCall.Starts (r : Registry) (id : ContextId) (context : Context) :
    ContextCall → Stretch → Prop where
  /-- The call returns at once and nothing changes. -/
  | returns {request : ContextCall} (result : Result) :
      Starts r id context request (r, .returned result)
  /-- A session is attached. -/
  | attaches {session : Session} :
      Starts r id context (.attach session)
        (r.update id fun c => { c with session := some session }).done
  /-- A handler is set. -/
  | installs {handler : Handler} {installed : Context} :
      context.install handler = .ok installed →
      Starts r id context (.install handler) (r.update id fun _ => installed).done
  /-- The context is made a channel for remote programs. -/
  | arms {session : Session} :
      Starts r id context (.arm session) (r.update id (Context.arm session)).done
  /-- The phase moves on, and that is all. -/
  | moves {request : ContextCall} {transition : Transition} {phase : Phase} (result : Result) :
      context.phase.step transition = .ok phase →
      Starts r id context request (r.setPhase id phase, .returned result)
  /-- The context is put into a phase. -/
  | puts {phase : Phase} : Starts r id context (.put phase) (r.setPhase id phase).done
  /-- A handshake begins an opening. -/
  | opens {request : ContextCall} {phase : Phase} {session : Session} :
      context.phase.step .beginHandshake = .ok phase → context.session = some session →
      Starts r id context request (r.setPhase id phase, .continues
        (.opening ⟨id, context.transport, session, true⟩ session.settings.opening))
  /-- An opening is begun without regard to the phase. -/
  | sends {session : Session} :
      context.session = some session →
      Starts r id context .sendOpening (r, .continues
        (.opening ⟨id, context.transport, session, false⟩ session.settings.opening))
  /-- Callbacks get an order. -/
  | hands {request : ContextCall} (handler : Nat) (order : ServerOrder) :
      Starts r id context request (r, .waits (.callback id handler order) .calling)
  /-- The program could not be executed, so the session is ended. -/
  | aborts {request : ContextCall} {session : Session} :
      context.session = some session →
      Starts r id context request (r.setPhase id .failed, .waits
        (.abort session.id .peerUnavailable launchFailedMessage) .aborting)

namespace Registry

variable (r : Registry) (id : ContextId) (context : Context) (request : ContextCall)

/-- A call may fail its context and return. -/
theorem starts_failed (result : Result) :
    request.Starts r id context (r.setPhase id .failed, .returned result) :=
  have hstep : context.phase.step .fail = .ok .failed := rfl
  .moves result hstep

/-- A handshake is begun as the start of a call allows. -/
theorem starts_handshake : request.Starts r id context (r.handshake id context) := by
  unfold handshake
  cases hphase : context.phase.beginHandshake with
  | error cause => exact .returns _
  | ok phase =>
    cases hsession : context.session with
    | none =>
      -- Without a session the channel fails at once.
      simp only [beginOpening, hsession, failOpening, if_true, setPhase_setPhase]
      exact r.starts_failed id context request _
    | some session =>
      simp only [beginOpening, hsession]
      exact .opens hphase hsession

/-- A report is taken as the start of a call allows. -/
theorem starts_report (order : LaunchReport) :
    request.Starts r id context (r.report id context order) := by
  unfold report
  split
  · exact .returns _
  · cases hsession : context.session with
    | none => exact r.starts_failed id context request _
    | some session => exact .aborts hsession

/-- An order is handled as the start of a call allows. -/
theorem starts_handle (order : ServerOrder) :
    request.Starts r id context (r.handle id context order) := by
  unfold handle
  split
  · exact .returns _
  · exact .returns _
  · exact .hands _ _
  · exact r.starts_handshake id context request
  · exact r.starts_handshake id context request
  · exact r.starts_report id context request _

end Registry

/-- The first stretch of a call on a context is one of these. -/
theorem ContextCall.starts (r : Registry) (id : ContextId) (context : Context)
    (request : ContextCall) : request.Starts r id context (r.call id context request) := by
  cases request with
  | attach session => exact .attaches
  | install handler =>
    -- An installation may be refused, and then nothing was done.
    cases hinstall : context.install handler with
    | ok installed =>
      simp only [Registry.call, hinstall]
      exact .installs hinstall
    | error cause =>
      simp only [Registry.call, hinstall]
      exact .returns _
  | arm session => exact .arms
  | dispatch order => exact r.starts_handle id context _ order
  | sendOpening =>
    cases hsession : context.session with
    | none =>
      simp only [Registry.call, Registry.beginOpening, hsession]
      exact .returns _
    | some session =>
      simp only [Registry.call, Registry.beginOpening, hsession]
      exact .sends hsession
  | report order => exact r.starts_report id context _ order
  | move transition =>
    cases hstep : context.phase.step transition with
    | ok phase =>
      simp only [Registry.call, hstep]
      exact .moves _ hstep
    | error cause =>
      simp only [Registry.call, hstep]
      exact .returns _
  | put phase => exact .puts

end RemotePrograms
