import Mathlib.Data.List.Basic
import RemotePrograms.Proofs.Channel.Confined
import RemotePrograms.Proofs.Channel.Handshake

/-!
# `RemotePrograms.Proofs.Channel.Connecting`: the first who registered gets the channel

Connecting a channel shows its context to the subscribers one after another, and while one of them
looks at it, anything may happen. Yet nobody else has the number of the context, for it has no name
before the end and no other activity is about it. `Machine.Shows` says how far the connecting has
come, and `Context.Awaits` who will get the context: the first on the list that acts for a session.
That list is made by the registrations, in their order (`registers_run`).

`arming_exclusive` puts the parts together.
-/

set_option autoImplicit false

namespace RemotePrograms

/-! ### Registrations -/

/-- The session that a subscriber acts for. -/
def Subscriber.session? : Subscriber → Option Session
  | remotePrograms session => some session
  | custom _ => none

/-- The session for which a move loads the support for remote programs. -/
def Move.registration? : Move → Option Session
  | .call (.loadRemotePrograms session) => some session
  | _ => none

/-- Nobody is registered by a move that carries an activity on. -/
theorem Move.registration?_of_activity? {move : Move} {id : ActivityId}
    (hmove : move.activity? = some id) : move.registration? = none := by
  cases move with
  | call operation => cases hmove
  | resume other | answer other reply => rfl

namespace Registry

variable {r : Registry} {id : ContextId}

/-- Which channels can be supported, which are, and who is told of new ones is as before. -/
structure SameOffer (r r' : Registry) : Prop where
  available_eq : r'.available = r.available
  loaded_eq : r'.loaded = r.loaded
  subscribers_eq : r'.subscribers = r.subscribers

/-- A registry that stays as it is keeps its offer. -/
theorem SameOffer.refl (r : Registry) : r.SameOffer r := ⟨rfl, rfl, rfl⟩

/-- A stretch about one context keeps the offer. -/
theorem Confined.sameOffer {stretch : Stretch} (h : r.Confined id stretch) :
    r.SameOffer stretch.1 := by
  rw [h.registry_eq]
  exact ⟨rfl, rfl, rfl⟩

/-- No later stretch changes what is on offer. -/
theorem SameOffer.of_continues {free : SessionId → Bool} {activity : Activity} {stretch : Stretch}
    (h : activity.Continues free r stretch) : r.SameOffer stretch.1 := by
  cases h with
  | completes => exact (r.confined_completeOpening _).sameOffer
  | fails => exact (r.confined_failOpening _ _ _).sameOffer
  | publishes | arms => exact ⟨rfl, rfl, rfl⟩
  | _ => exact .refl r

/-- What is known of the support for remote programs: it is loaded only where it is available, and
where it is, every registration put its session onto the list. -/
structure Registers (sessions : List Session) (r : Registry) : Prop where
  available : r.loaded.contains remoteProgramsChannel = true →
    r.available.contains remoteProgramsChannel = true
  sessions : r.available.contains remoteProgramsChannel = true →
    r.subscribers.filterMap Subscriber.session? = sessions

/-- What is known of the registrations depends on the offer only. -/
theorem Registers.of_sameOffer {r' : Registry} {sessions : List Session}
    (h : r.Registers sessions) (hsame : r.SameOffer r') : r'.Registers sessions := by
  refine ⟨fun hloaded => ?_, fun havailable => ?_⟩
  · rw [hsame.available_eq]
    rw [hsame.loaded_eq] at hloaded
    exact h.available hloaded
  · rw [hsame.subscribers_eq]
    rw [hsame.available_eq] at havailable
    exact h.sessions havailable

/-- Nobody else has registered. -/
theorem Registers.withoutMore {sessions : List Session} (h : r.Registers sessions) :
    r.Registers (sessions ++ []) := by
  rw [List.append_nil]
  exact h

/-- Loading support registers nobody, and it loads only what is available. -/
theorem Registers.load {r' : Registry} {sessions : List Session} (h : r.Registers sessions)
    {name : String} (hload : r.load name = .ok r') : r'.Registers sessions := by
  rcases load_cases hload with ⟨havailable, loaded, rfl, hloaded⟩
  refine ⟨fun hcontains => ?_, h.sessions⟩
  rcases hloaded _ hcontains with hold | rfl
  · exact h.available hold
  · exact havailable

/-- What an operation registers. -/
theorem registers_start {sessions : List Session} (h : r.Registers sessions)
    (operation : Operation) :
    (operation.start r).1.Registers
      (sessions ++ (Move.call operation).registration?.toList) := by
  have hstarts := operation.starts r
  generalize operation.start r = stretch at hstarts ⊢
  cases hstarts with
  | returns hcall hrefused =>
    refine ⟨h.available, fun havailable => ?_⟩
    cases operation with
    | loadRemotePrograms session =>
      -- The registration fails only where there is no support at all.
      rw [hrefused session rfl] at havailable
      cases havailable
    | _ => exact h.withoutMore.sessions havailable
  | loads hload => exact .withoutMore (h.load hload)
  | @registers session r' hload =>
    have hloaded := h.load hload
    refine ⟨hloaded.available, fun havailable => ?_⟩
    show (r'.subscribers ++ [_]).filterMap Subscriber.session? = _
    rw [List.filterMap_append, hloaded.sessions havailable]
    rfl
  | subscribes =>
    refine ⟨h.available, fun havailable => ?_⟩
    show (r.subscribers ++ [_]).filterMap Subscriber.session? = _
    rw [List.filterMap_append, h.sessions havailable]
    rfl
  -- No other operation touches the list.
  | connects => exact .withoutMore (h.of_sameOffer ⟨rfl, rfl, rfl⟩)
  | creates => exact .withoutMore (h.of_sameOffer ⟨rfl, rfl, rfl⟩)
  | closes hdisconnect =>
    rcases Option.map_eq_some_iff.mp hdisconnect with ⟨id, -, rfl⟩
    exact .withoutMore (h.of_sameOffer ⟨rfl, rfl, rfl⟩)
  | handles => exact .withoutMore (h.of_sameOffer (r.confined_handle _ _ _).sameOffer)
  | calls => exact .withoutMore (h.of_sameOffer (r.confined_call _ _ _).sameOffer)
  | misses => exact h.withoutMore
  | aborts => exact h.withoutMore
  | locks => exact h.withoutMore

end Registry

namespace Machine

variable {m : Machine}

/-- A move adds the registration that it makes, if it makes one. -/
theorem registers_step {sessions : List Session} (h : m.registry.Registers sessions)
    (move : Move) :
    (m.step move).1.registry.Registers (sessions ++ move.registration?.toList) := by
  have hsteps := m.registry_step move
  generalize (m.step move).1.registry = r' at hsteps ⊢
  cases hsteps with
  | idle hmove =>
    rw [Move.registration?_of_activity? hmove]
    exact h.withoutMore
  | call operation => exact Registry.registers_start h operation
  | continues hmove hcontinues =>
    rw [Move.registration?_of_activity? hmove]
    exact .withoutMore (h.of_sameOffer (.of_continues hcontinues))

/-- On a new connection nobody is registered. -/
theorem registers_ofRegistry (available : List String) :
    (ofRegistry { available }).registry.Registers [] where
  available hloaded := by cases hloaded
  sessions _ := rfl

/-- The registrations of a run are on the list in their order. -/
theorem registers_run {sessions : List Session} (h : m.registry.Registers sessions)
    (moves : List Move) :
    (m.run moves).1.registry.Registers (sessions ++ moves.filterMap Move.registration?) := by
  induction moves generalizing m sessions with
  | nil =>
    rw [List.filterMap_nil, List.append_nil]
    exact h
  | cons move moves ih =>
    have hrun := ih (registers_step h move)
    rw [List.append_assoc] at hrun
    rw [List.filterMap_eq_flatMap_toList] at hrun ⊢
    exact hrun

end Machine

/-! ### Connecting -/

/-- The context of a channel that is shown to its subscribers, while these are left: the first of
them that acts for a session is the earliest registration, or the context was armed for it
already. -/
inductive Context.Awaits (session : Session) (transport : TransportId) (left : List Subscriber) :
    Context → Prop where
  | waiting : (left.filterMap Subscriber.session?).head? = some session →
      Awaits session transport left
        ⟨remoteProgramsChannel, transport, none, none, .channelConnected⟩
  | taken : Awaits session transport left
      ⟨remoteProgramsChannel, transport, some session, some .remotePrograms, .awaitingHandshake⟩

namespace Context.Awaits

variable {session : Session} {transport : TransportId} {left : List Subscriber}
  {context : Context}

/-- Somebody else looks at the context, and leaves it as it is. -/
theorem custom {id : Nat} (h : context.Awaits session transport (.custom id :: left)) :
    context.Awaits session transport left := by
  cases h with
  | waiting hfirst => exact .waiting hfirst
  | taken => exact .taken

/-- The first session gets the context, and each one after it finds that it is taken. -/
theorem arm {other : Session}
    (h : context.Awaits session transport (.remotePrograms other :: left)) :
    (context.arm other).Awaits session transport left := by
  cases h with
  | waiting hfirst =>
    cases hfirst
    rw [arm_of_canArm ⟨rfl, rfl⟩]
    exact .taken
  | taken =>
    rw [arm_of_not_canArm fun hcan => by cases hcan.2]
    exact .taken

/-- When nobody is left, somebody got it. -/
theorem eq_of_nil (h : context.Awaits session transport []) :
    context = ⟨remoteProgramsChannel, transport, some session, some .remotePrograms,
      .awaitingHandshake⟩ := by
  cases h with
  | waiting hfirst => cases hfirst
  | taken => rfl

end Context.Awaits

namespace Machine

/-- The activity shows the context to the subscribers that are left. Nobody else knows of it. -/
structure Shows (m : Machine) (id : ActivityId) (c : ContextId) (session : Session)
    (transport : TransportId) : Prop where
  isShowing : ∃ activity left context, m.activity? id = some activity ∧
    (activity = .notifying remoteProgramsChannel c left ∨
      activity = .notified remoteProgramsChannel c left) ∧
    m.registry.context? c = some context ∧ context.Awaits session transport left
  alone : ∀ other activity, m.activity? other = some activity → activity.context? = some c →
    other = id
  unnamed : ¬ m.registry.Names c
  lt_next : id < m.nextActivity

variable {m : Machine} {id : ActivityId} {c : ContextId} {session : Session}
  {transport : TransportId}

/-- What somebody else does leaves the connecting as it is. -/
theorem Shows.step_other (h : m.Shows id c session transport) {move : Move}
    (hcall : ∀ request, move ≠ .call (.call c request)) (hother : move.activity? ≠ some id) :
    (m.step move).1.Shows id c session transport := by
  rcases h.isShowing with ⟨activity, left, context, hactivity, hshows, hcontext, hawaits⟩
  rcases spares_step h.unnamed (fun request hmove => absurd hmove (hcall request))
    (.inl (by rw [hcontext]; rfl)) (fun other activity hmove hsome hc =>
      hother (by rw [hmove, h.alone other activity hsome hc])) with ⟨hsame, hunnamed, halone⟩
  refine ⟨⟨activity, left, context, ?_, hshows, ?_, hawaits⟩, fun other activity hsome hc =>
    h.alone other activity (halone other activity hsome hc) hc, hunnamed,
    Nat.lt_of_lt_of_le h.lt_next (nextActivity_le_step m move)⟩
  · rw [activity?_step_ne h.lt_next hother]
    exact hactivity
  · rw [hsame]
    exact hcontext

/-- What its own stretches make of the connecting: it goes on, or it is finished and returns the
context, which the earliest registration got. -/
theorem Shows.step_own (h : m.Shows id c session transport) {move : Move}
    (hown : move.activity? = some id) :
    (m.step move).1.Shows id c session transport ∨
      (m.step move).2 = some (.returned id (.ok (.context c))) ∧
        (m.step move).1.registry.context? c
          = some ⟨remoteProgramsChannel, transport, some session, some .remotePrograms,
              .awaitingHandshake⟩ := by
  rcases h.isShowing with ⟨activity, left, context, hactivity, hshows, hcontext, hawaits⟩
  -- A stretch after which the activity is still about to show the context to somebody.
  have hgoes : ∀ {r : Registry} {progress : Progress} {left : List Subscriber}
      {context : Context} {activity : Activity}, m.step move = m.enter id (r, progress) →
      progress.activity? = some activity →
      (activity = .notifying remoteProgramsChannel c left ∨
        activity = .notified remoteProgramsChannel c left) →
      r.context? c = some context → context.Awaits session transport left →
      ¬ r.Names c → (m.step move).1.Shows id c session transport := by
    intro r progress left context activity hstep hprogress hshows hcontext hawaits hunnamed
    rw [hstep]
    refine ⟨⟨activity, left, context, ?_, hshows, ?_, hawaits⟩, fun other later hlater hc => ?_,
      ?_, ?_⟩
    · rw [activity?_enter_self]
      exact hprogress
    · rw [registry_enter]
      exact hcontext
    · by_cases hid : other = id
      · exact hid
      · rw [activity?_enter_ne _ _ hid] at hlater
        exact h.alone other later hlater hc
    · rw [registry_enter]
      exact hunnamed
    · rw [nextActivity_enter]
      exact h.lt_next
  have hidle : m.step move = (m, none) → (m.step move).1.Shows id c session transport := by
    intro hstep
    rw [hstep]
    exact h
  cases move with
  | call operation => cases hown
  | resume other =>
    cases hown
    rcases hshows with rfl | rfl
    · have hstep := step_resume hactivity rfl
      cases left with
      | nil =>
        rw [hstep, event_enter, registry_enter, ← hawaits.eq_of_nil]
        exact .inr ⟨rfl, hcontext⟩
      | cons subscriber left =>
        cases subscriber with
        | remotePrograms other =>
          refine .inl (hgoes hstep rfl (.inl rfl) ?_ hawaits.arm h.unnamed)
          rw [Registry.context?_update, if_pos rfl, hcontext]
          rfl
        | custom subscriber =>
          exact .inl (hgoes hstep rfl (.inr rfl) hcontext hawaits.custom h.unnamed)
    · refine .inl (hidle (step_resume_idle fun activity hsome => ?_))
      rw [hactivity] at hsome
      cases hsome
      rfl
  | answer other reply =>
    cases hown
    rcases hshows with rfl | rfl
    · refine .inl (hidle (step_answer_idle reply fun activity hsome => ?_))
      rw [hactivity] at hsome
      cases hsome
      rfl
    · exact .inl (hgoes (step_answer reply hactivity rfl) rfl (.inl rfl) hcontext hawaits h.unnamed)

/-- A move in which nobody calls the context: the connecting goes on, or it returns the context. -/
theorem Shows.step (h : m.Shows id c session transport) {move : Move}
    (hcall : ∀ request, move ≠ .call (.call c request)) :
    (m.step move).1.Shows id c session transport ∨
      (m.step move).2 = some (.returned id (.ok (.context c))) ∧
        (m.step move).1.registry.context? c
          = some ⟨remoteProgramsChannel, transport, some session, some .remotePrograms,
              .awaitingHandshake⟩ := by
  by_cases hown : move.activity? = some id
  · exact h.step_own hown
  · exact .inl (h.step_other hcall hown)

/-- In a run in which nobody calls the context, the connecting goes on until it has returned. -/
theorem Shows.run (h : m.Shows id c session transport) (moves : List Move)
    (hcall : ∀ move ∈ moves, ∀ request, move ≠ .call (.call c request)) :
    (m.run moves).1.Shows id c session transport ∨ (m.run moves).1.activity? id = none := by
  refine (run_induction (P := fun m => id < m.nextActivity ∧
    (m.Shows id c session transport ∨ m.activity? id = none)) ⟨h.lt_next, .inl h⟩
    fun m ⟨hlt, hm⟩ move hmove => ⟨Nat.lt_of_lt_of_le hlt (nextActivity_le_step m move), ?_⟩).2
  rcases hm with hshows | hnone
  · rcases hshows.step (hcall move hmove) with hnext | ⟨hreturned, -⟩
    · exact .inl hnext
    · exact .inr (activity?_of_returned hreturned)
  · exact .inr (step_finished hnone hlt move).1

/-- What a connecting returns successfully is the context, and the earliest registration has it. -/
theorem Shows.finishes (h : m.Shows id c session transport) {moves : List Move} {value : Value}
    (hcall : ∀ move ∈ moves, ∀ request, move ≠ .call (.call c request))
    (hfinishes : m.Finishes moves id (.ok value)) :
    value = .context c ∧ (m.run moves).1.registry.context? c
      = some ⟨remoteProgramsChannel, transport, some session, some .remotePrograms,
          .awaitingHandshake⟩ := by
  rcases hfinishes with ⟨before, last, rfl, hreturned⟩
  rcases h.run before fun move hmove => hcall move (List.mem_append_left _ hmove)
    with hshows | hnone
  · rcases hshows.step (hcall last (by simp)) with hnext | ⟨hevent, hcontext⟩
    · -- The connecting is finished by this move, so it does not go on behind it.
      rcases hnext.isShowing with ⟨activity, -, -, hactivity, -⟩
      rw [activity?_of_returned hreturned] at hactivity
      cases hactivity
    · rw [hreturned] at hevent
      cases hevent
      rw [run_append]
      exact ⟨rfl, hcontext⟩
  · have hlt := Nat.lt_of_lt_of_le h.lt_next (nextActivity_le_run m before)
    exact absurd hreturned ((step_finished hnone hlt last).2 _)

/-- The first stretch of connecting makes the context and begins to show it. -/
theorem shows_connect (hknown : m.IsKnown) {sessions : List Session}
    (hregisters : m.registry.Registers sessions) (hfirst : sessions.head? = some session)
    (hloaded : m.registry.isLoaded remoteProgramsChannel = true) :
    (m.step (.call (.connect remoteProgramsChannel transport))).1.Shows m.nextActivity
      m.registry.nextContext session transport := by
  have hnew := hknown _ m.registry.context?_nextContext
  have hstep : m.step (.call (.connect remoteProgramsChannel transport))
      = (m.numbered (.call (.connect remoteProgramsChannel transport))).enter m.nextActivity
        (m.registry.create
            { name := remoteProgramsChannel, transport, phase := .channelConnected },
          .continues (.notifying remoteProgramsChannel m.registry.nextContext
            m.registry.subscribers)) := by
    rw [step_call, Operation.start, Registry.beginConnect, if_pos hloaded]
  rw [hstep]
  refine ⟨⟨_, m.registry.subscribers, _, ?_, .inl rfl, ?_, .waiting ?_⟩,
    fun other activity hactivity hc => ?_, ?_, ?_⟩
  · rw [activity?_enter_self]
    rfl
  · rw [registry_enter, Registry.context?_create, if_pos rfl]
  · rw [hregisters.sessions (hregisters.available hloaded)]
    exact hfirst
  · -- Whatever else is under way began before the context was there.
    by_cases hid : other = m.nextActivity
    · exact hid
    · rw [activity?_enter_ne _ _ hid, activity?_numbered] at hactivity
      exact absurd hc (hnew.2 other activity hactivity)
  · rw [registry_enter]
    exact hnew.1
  · rw [nextActivity_enter]
    exact Nat.lt_succ_self _

/-- Whoever registered first has the context that connecting returns. -/
theorem finishes_connect (hknown : m.IsKnown) {sessions : List Session}
    (hregisters : m.registry.Registers sessions) (hfirst : sessions.head? = some session)
    {later : List Move} {value : Value}
    (hcall : ∀ move ∈ later, ∀ request, move ≠ .call (.call m.registry.nextContext request))
    (hfinishes : m.Finishes (.call (.connect remoteProgramsChannel transport) :: later)
      m.nextActivity (.ok value)) :
    value = .context m.registry.nextContext ∧
      (m.run (.call (.connect remoteProgramsChannel transport) :: later)).1.registry.context?
          m.registry.nextContext
        = some ⟨remoteProgramsChannel, transport, some session, some .remotePrograms,
            .awaitingHandshake⟩ := by
  rcases hfinishes with ⟨before, last, heq, hreturned⟩
  cases hloaded : m.registry.isLoaded remoteProgramsChannel with
  | true =>
    cases before with
    | nil =>
      -- The first stretch of connecting does not return.
      cases heq
      rw [show (m.run []).1 = m from rfl, event_step_call, Operation.start,
        Registry.beginConnect, if_pos hloaded] at hreturned
      cases hreturned
    | cons first before =>
      cases heq
      exact (shows_connect hknown hregisters hfirst hloaded).finishes hcall
        ⟨before, last, rfl, hreturned⟩
  | false =>
    -- Without support the connecting is refused at once, and then it has no other result.
    have hrefused : (m.step (.call (.connect remoteProgramsChannel transport))).2
        = some (.returned m.nextActivity (.error (.noChannel remoteProgramsChannel))) := by
      rw [event_step_call, Operation.start, Registry.beginConnect, if_neg (by simp [hloaded])]
      rfl
    cases before with
    | nil =>
      cases heq
      rw [show (m.run []).1 = m from rfl, hrefused] at hreturned
      cases hreturned
    | cons first before =>
      cases heq
      have hlt : m.nextActivity
          < (m.step (.call (.connect remoteProgramsChannel transport))).1.nextActivity := by
        rw [nextActivity_step_call]
        exact Nat.lt_succ_self _
      exact absurd hreturned (not_returned_again [] hlt hrefused)

/-! ### The session is there -/

/-- What an opening without a session comes to. -/
def missingSession : Error :=
  .notAllowed "rail channel has no session attached"

/-- No transition is refused for want of a session. -/
theorem step_ne_missingSession {transition : Transition} {phase : Phase} :
    phase.step transition ≠ .error missingSession := by
  cases transition with
  | fail => simp [Phase.step]
  | close => simp [Phase.step]
  | _ =>
    cases phase <;> simp [Phase.step, Phase.connect, Phase.awaitHandshake, Phase.beginHandshake,
      Phase.completeHandshake, missingSession]

/-- No report is refused for want of a session. -/
theorem report_ne_missingSession {r : Registry} {id : ContextId} {context : Context}
    (order : LaunchReport) :
    (r.report id context order).2 ≠ .returned (.error missingSession) := by
  unfold Registry.report
  split
  · simp [Registry.done]
  · simp only
    split
    · simp [Registry.done]
    · simp

/-- An order that is handed to a context is never refused for want of a session, if handler and
session come together. -/
theorem handle_ne_missingSession {r : Registry} {id : ContextId} {context : Context}
    (h : context.IsCoupled) (order : ServerOrder) :
    (r.handle id context order).2 ≠ .returned (.error missingSession) := by
  have hhandshake : context.handler = some .remotePrograms →
      (r.handshake id context).2 ≠ .returned (.error missingSession) := by
    intro hhandler
    unfold Registry.handshake
    split
    · rename_i cause hbegin
      intro heq
      cases heq
      exact @step_ne_missingSession .beginHandshake _ hbegin
    · -- An opening would begin here, and that needs the session.
      cases h with
      | bare hnone =>
        rw [hnone] at hhandler
        cases hhandler
      | armed _ hsession =>
        simp only [Registry.beginOpening, hsession]
        simp
  unfold Registry.handle
  split
  · simp [Registry.done]
  · simp [Registry.done]
  · simp
  · rename_i hhandler
    exact hhandshake hhandler
  · rename_i hhandler
    exact hhandshake hhandler
  · exact report_ne_missingSession _

/-- No operation finds that a session is missing, unless it sends an opening on a context on which
no handshake is answered. -/
theorem start_ne_missingSession (h : m.IsCoupled) (operation : Operation)
    (hdirect : ∀ c, operation ≠ .call c .sendOpening) :
    (operation.start m.registry).2 ≠ .returned (.error missingSession) := by
  have hstarts := operation.starts m.registry
  generalize operation.start m.registry = stretch at hstarts ⊢
  cases hstarts with
  | returns _ _ hresult =>
    intro heq
    cases heq
    exact hresult _ rfl
  | handles _ hcontext => exact handle_ne_missingSession (h _ _ hcontext) _
  | @calls id request context hcontext =>
    cases request with
    | attach session => simp [Registry.call, Registry.done]
    | install handler =>
      simp only [Registry.call]
      split
      · simp [Registry.done]
      · rename_i cause hinstall
        intro heq
        cases heq
        unfold Context.install Context.awaitingPhase Phase.awaitHandshake at hinstall
        split at hinstall
        · cases hinstall
        · split at hinstall
          all_goals simp [missingSession, Except.map] at hinstall
    | arm session => simp [Registry.call, Registry.done]
    | dispatch order => exact handle_ne_missingSession (h _ _ hcontext) order
    | sendOpening => exact absurd rfl (hdirect id)
    | report order => exact report_ne_missingSession order
    | move transition =>
      simp only [Registry.call]
      split
      · simp [Registry.done]
      · rename_i cause hstep
        intro heq
        cases heq
        exact step_ne_missingSession hstep
    | put phase => simp [Registry.call, Registry.done]
  -- Whatever else an operation does it does well.
  | _ => simp [Registry.done]

end Machine

/-! ### The property -/

/-- Arming is done in full or not at all, once, and for whoever comes first. In every run that
leaves it to the library to set handlers and sessions, the contexts have both or neither, and none
that has them is in a fresh phase. All the attempts to arm a context come to the one session that
it has in the end, if it has one, and later moves do not change that session or the handler. A
context that is told of its connection and can be armed had neither before and has both at once;
one that cannot is left as it is, and so is everything else.

Say that support for remote programs was registered, and that the channel is then connected. If
that succeeds, and nobody calls the new context in the meantime, the context that is returned waits
for its handshake and works for the earliest registration. And whatever is handed to the channels,
no opening ever fails because there is no session. -/
theorem arming_exclusive (available : List String) (moves : List Move)
    (hmoves : ∀ move ∈ moves, move.leavesArming = true) :
    let start : Machine := .ofRegistry { available }
    let m := (start.run moves).1
    (∀ c context, m.registry.context? c = some context →
      (context.handler.isSome ↔ context.session.isSome) ∧
        (context.handler.isSome →
          context.phase ≠ .disconnected ∧ context.phase ≠ .channelConnected)) ∧
    (∀ c, start.armings c moves = (m.session? c).toList) ∧
    (∀ c context session later, m.registry.context? c = some context →
      context.session = some session → (∀ move ∈ later, move.leavesArming = true) →
      ∃ context', (m.run later).1.registry.context? c = some context' ∧
        context'.session = some session ∧ context'.handler = context.handler) ∧
    (∀ c context move session, m.registry.context? c = some context →
      m.told? c move = some session →
      if context.CanArm then
        context.handler = none ∧ context.session = none ∧
          (m.step move).1.registry.context? c = some (context.armed session)
      else (m.step move).1.registry = m.registry) ∧
    (∀ session transport later value,
      (moves.filterMap Move.registration?).head? = some session →
      (∀ move ∈ later, ∀ request, move ≠ .call (.call m.registry.nextContext request)) →
      m.Finishes (.call (.connect remoteProgramsChannel transport) :: later) m.nextActivity
        (.ok value) →
      value = .context m.registry.nextContext ∧
        (m.run (.call (.connect remoteProgramsChannel transport) :: later)).1.registry.context?
            m.registry.nextContext
          = some ⟨remoteProgramsChannel, transport, some session, some .remotePrograms,
              .awaitingHandshake⟩) ∧
    ∀ operation, (∀ c, operation ≠ .call c .sendOpening) →
      (m.step (.call operation)).2
        ≠ some (.returned m.nextActivity (.error Machine.missingSession)) := by
  intro start m
  have hcoupled : m.IsCoupled :=
    Machine.isCoupled_run (Machine.isCoupled_ofRegistry available) moves hmoves
  refine ⟨fun c context hcontext => ?_, fun c => ?_,
    fun c context session later hcontext hsession hlater => ?_,
    fun c context move session hcontext htold => ?_,
    fun session transport later value hfirst hcall hfinishes => ?_,
    fun operation hdirect hreturned => ?_⟩
  · have hcontext := hcoupled c context hcontext
    refine ⟨hcontext.isSome_iff, fun hhandler => ?_⟩
    have hfresh := hcontext.isFresh_eq_false hhandler
    constructor
    · intro hphase
      rw [hphase] at hfresh
      cases hfresh
    · intro hphase
      rw [hphase] at hfresh
      cases hfresh
  · exact Machine.armings_run (Machine.isCoupled_ofRegistry available) c moves hmoves
  · exact Machine.attached_run hcoupled hcontext hsession later hlater
  · have hupdate := Machine.registry_of_told htold
    split
    · -- Only a bare context can be armed.
      rename_i hcan
      have hbare := (hcoupled c context hcontext).bare_of_canArm hcan
      refine ⟨hbare.1, hbare.2, ?_⟩
      rw [hupdate, Registry.context?_update, if_pos rfl, hcontext, Option.map_some,
        Context.arm_of_canArm hcan]
    · rename_i hcan
      rw [hupdate]
      refine Registry.update_eq_self fun other hother => ?_
      rw [hcontext] at hother
      cases hother
      exact Context.arm_of_not_canArm hcan
  · refine Machine.finishes_connect ?_ ?_ hfirst hcall hfinishes
    · exact Machine.isKnown_run (Machine.isKnown_ofRegistry available) moves hmoves
    · exact Machine.registers_run (Machine.registers_ofRegistry available) moves
  · rw [Machine.step_call, Machine.event_enter] at hreturned
    exact Machine.start_ne_missingSession hcoupled operation hdirect
      (Progress.of_event?_returned hreturned).2

section Rivals

/-- The session that registers first. -/
def firstRival : Session := ⟨1, {}⟩

/-- The session that registers second. -/
def secondRival : Session := ⟨2, { program := "notepad" }⟩

/-- Two sessions register, and somebody else between them. -/
def rivalMoves : List Move :=
  [.call (.loadRemotePrograms firstRival), .call (.subscribe 7),
    .call (.loadRemotePrograms secondRival)]

/-- All three are shown the new channel, and the second session tries again later. -/
def rivalConnecting : List Move :=
  [.call (.connect remoteProgramsChannel 5), .resume 3, .resume 3, .answer 3 (.ok ()), .resume 3,
    .resume 3]

/-- The channel belongs to the session that registered first, whatever the second one tries. -/
theorem arming_exclusive_rivals :
    let start : Machine := .ofRegistry { available := [remoteProgramsChannel] }
    let taken : Context :=
      ⟨remoteProgramsChannel, 5, some firstRival, some .remotePrograms, .awaitingHandshake⟩
    let m := (start.run (rivalMoves ++ rivalConnecting)).1
    ((start.run rivalMoves).1.run rivalConnecting).1.registry.context? 0 = some taken ∧
      start.armings 0 (rivalMoves ++ rivalConnecting) = [firstRival] ∧
      (m.step (.call (.call 0 (.arm secondRival)))).1.registry = m.registry ∧
      (m.step (.call (.dispatch remoteProgramsChannel (.handshake ⟨0⟩)))).2
        ≠ some (.returned m.nextActivity (.error Machine.missingSession)) := by
  intro start taken m
  have hconnects := (arming_exclusive [remoteProgramsChannel] rivalMoves (by decide)).2.2.2.2.1
    firstRival 5 [.resume 3, .resume 3, .answer 3 (.ok ()), .resume 3, .resume 3] (.context 0)
    (by decide) (fun move hmove request heq => by simp [heq] at hmove)
    ⟨[.call (.connect remoteProgramsChannel 5), .resume 3, .resume 3, .answer 3 (.ok ()),
      .resume 3], .resume 3, rfl, rfl⟩
  have harmed := arming_exclusive [remoteProgramsChannel] (rivalMoves ++ rivalConnecting)
    (by decide)
  have htold := harmed.2.2.2.1 0 taken (.call (.call 0 (.arm secondRival))) secondRival rfl rfl
  rw [if_neg (by decide)] at htold
  exact ⟨hconnects.2, harmed.2.1 0, htold, harmed.2.2.2.2.2 _ (by simp)⟩

end Rivals

end RemotePrograms
