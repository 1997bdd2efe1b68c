import RemotePrograms.Proofs.Channel.Continues

/-!
# `RemotePrograms.Proofs.Channel.Regular`: what regular operations do to a context

Whoever holds a context may install callbacks of his own on it or put it into any phase, and
then nothing can be said about it. `Operation.isRegular` leaves these calls out: contexts are
armed for remote programs in no other way than `Context.arm`, phases are moved by the operations
of the library, and openings are sent for a handshake only. Connecting and closing a context
directly stay in, because that is what a second registry does to contexts of its own. So a run
of regular moves also covers several connections that share their sessions.

Under regular operations a context is `Context.IsBare` until it is armed, and `Context.IsArmed`
from then on. Apart from a handshake there is only one thing that a stretch can do to an armed
context: it may end it, and `Registry.ending?` reads off the operation which ending that is.
`Drift` says so for one context and one stretch, and `start_cases` and `drifts_of_continues` prove
it for every stretch that is not part of an opening.
-/

set_option autoImplicit false

namespace RemotePrograms

/-! ### Regular moves -/

/-- Whether a call leaves handler, session, phase and openings of a context to the library. -/
def ContextCall.isRegular : ContextCall → Bool
  | .arm _ | .dispatch _ | .report _ | .move .connect | .move .close => true
  | _ => false

/-- Whether an operation leaves handlers, sessions, phases and openings to the library. -/
def Operation.isRegular : Operation → Bool
  | .call _ request => request.isRegular
  | _ => true

/-- Whether a move calls regular operations only. -/
def Move.isRegular : Move → Bool
  | .call operation => operation.isRegular
  | _ => true

/-- The moves that connect a channel for remote programs on a machine on which nothing has
happened: its context gets the number zero. -/
def armingMoves (session : Session) (transport : TransportId) : List Move :=
  [.call (.loadRemotePrograms session), .call (.connect remoteProgramsChannel transport),
    .resume 1, .resume 1]

/-! ### Endings -/

/-- The ending that an order of the server brings: a report of failure. -/
def ServerOrder.ending? : ServerOrder → Option Ending
  | .launchReport order => if order.result.isSuccess then none else some .failed
  | _ => none

/-- The ending that a call brings onto the context it is made on. -/
def ContextCall.ending? : ContextCall → Option Ending
  | .dispatch order => order.ending?
  | .report order => (ServerOrder.launchReport order).ending?
  | .move .close => some .closed
  | _ => none

/-- The ending that an operation brings onto an armed context: it closes the channel, or it hands
in a report of failure. -/
def Registry.ending? (r : Registry) (id : ContextId) : Operation → Option Ending
  | .disconnect name => if r.channel? name = some id then some .closed else none
  | .dispatch name order => if r.channel? name = some id then order.ending? else none
  | .call target request => if target = id then request.ending? else none
  | _ => none

/-- The phase of a context on which an ending came, if one came. A failure counts more than a
closing. -/
def Phase.endedBy : Option Ending → Phase → Phase
  | none, phase => phase
  | some .failed, _ => .failed
  | some .closed, phase => phase.close

/-- From one phase to the other, what has ended stays so, and a failure stays a failure. -/
structure Phase.Lasts (before after : Phase) : Prop where
  isTerminated : before.isTerminated → after.isTerminated
  failed : before = .failed → after = .failed

namespace Phase.Lasts

/-- A phase lasts while nothing happens. -/
@[simp] theorem refl (phase : Phase) : phase.Lasts phase := ⟨id, id⟩

/-- What lasts from one phase to the next and from there on lasts all the way. -/
theorem trans {first second third : Phase} (h : first.Lasts second) (h' : second.Lasts third) :
    first.Lasts third :=
  ⟨h'.isTerminated ∘ h.isTerminated, h'.failed ∘ h.failed⟩

/-- From a phase that has not ended anything may follow. -/
theorem of_going {before : Phase} (h : before.isTerminated = false) (after : Phase) :
    before.Lasts after := by
  refine ⟨fun hended => ?_, fun hfailed => ?_⟩
  · rw [h] at hended
    cases hended
  · rw [hfailed] at h
    cases h

/-- A failure may follow on every phase. -/
theorem toFailed (phase : Phase) : phase.Lasts .failed := ⟨fun _ => rfl, fun _ => rfl⟩

/-- A closing undoes no ending. -/
theorem close (phase : Phase) : phase.Lasts phase.close := by
  cases phase with
  | terminated ending => cases ending <;> exact ⟨fun _ => rfl, fun h => by cases h <;> rfl⟩
  | _ => exact of_going rfl _

/-- No ending undoes an earlier one. -/
theorem endedBy (ending : Option Ending) (phase : Phase) :
    phase.Lasts (phase.endedBy ending) := by
  cases ending with
  | none => exact refl phase
  | some ending =>
    cases ending with
    | failed => exact toFailed phase
    | closed => exact close phase

end Phase.Lasts

/-! ### Armed and bare contexts -/

/-- A context that was armed for remote programs. -/
structure Context.IsArmed (context : Context) : Prop where
  name_eq : context.name = remoteProgramsChannel
  handler_eq : context.handler = some .remotePrograms
  session_isSome : context.session.isSome
  ne_disconnected : context.phase ≠ .disconnected
  ne_channelConnected : context.phase ≠ .channelConnected

/-- A context that was not armed: it has neither handler nor session, and no part in a
handshake. -/
structure Context.IsBare (context : Context) : Prop where
  handler_eq : context.handler = none
  session_eq : context.session = none
  phase_cases : context.phase = .disconnected ∨ context.phase = .channelConnected ∨
    context.phase.isTerminated

/-- What a stretch other than one of an opening does to one context. -/
inductive Drift (ending : Option Ending) : Option Context → Option Context → Prop where
  | absent : Drift ending none none
  | made {context : Context} : context.IsBare → Drift ending none (some context)
  | bare {context context' : Context} : context.IsBare → context'.IsBare →
      context.phase.Lasts context'.phase → Drift ending (some context) (some context')
  | armed {context context' : Context} : context.IsBare → context'.IsArmed →
      context.phase.isTerminated = false → context'.phase = .awaitingHandshake →
      Drift ending (some context) (some context')
  /-- An armed context keeps all but its phase, and that changes by an ending only. -/
  | kept {context : Context} : context.IsArmed →
      Drift ending (some context) (some { context with phase := context.phase.endedBy ending })

namespace Registry

/-- Every context of the registry is armed or bare. -/
def IsOrderly (r : Registry) : Prop :=
  ∀ id context, r.context? id = some context → context.IsArmed ∨ context.IsBare

/-- Every context drifts, with the endings that are given for each. -/
def Drifts (r r' : Registry) (endings : ContextId → Option Ending) : Prop :=
  ∀ id, Drift (endings id) (r.context? id) (r'.context? id)

/-! ### Contexts after a change of the registry -/

/-- A change of one context is a change of that context only. -/
theorem context?_update (r : Registry) (id other : ContextId) (f : Context → Context) :
    (r.update id f).context? other
      = if other = id then (r.context? other).map f else r.context? other := by
  show (r.contexts.modify id f)[other]? = _
  rw [List.getElem?_modify]
  by_cases h : other = id
  · simp [h, context?]
  · simp [h, Ne.symm h, context?]

/-- A new context gets the next number, and the others keep theirs. -/
theorem context?_create (r : Registry) (id : ContextId) (context : Context) :
    (r.create context).context? id
      = if id = r.nextContext then some context else r.context? id := by
  show (r.contexts ++ [context])[id]? = _
  by_cases h : id = r.nextContext
  · subst h
    simp [nextContext]
  · rw [if_neg h]
    cases Nat.lt_or_ge id r.contexts.length with
    | inl hlt => exact List.getElem?_append_left hlt
    | inr hge =>
      have hgt : r.contexts.length < id := Nat.lt_of_le_of_ne hge (Ne.symm h)
      rw [List.getElem?_append_right hge, context?, List.getElem?_eq_none hge,
        List.getElem?_eq_none (Nat.sub_pos_of_lt hgt)]

/-- No context has the next number yet. -/
theorem context?_nextContext (r : Registry) : r.context? r.nextContext = none :=
  List.getElem?_eq_none (Nat.le_refl _)

/-- Loading support does nothing to the contexts. -/
@[simp] theorem context?_load {r r' : Registry} {name : String} (h : r.load name = .ok r')
    (id : ContextId) : r'.context? id = r.context? id := by
  unfold load at h
  split at h
  · split at h
    · cases h
      rfl
    · cases h
      rfl
  · cases h

/-- A registration does nothing to the contexts. -/
@[simp] theorem context?_subscribe (r : Registry) (subscriber : Subscriber) (id : ContextId) :
    (r.subscribe subscriber).context? id = r.context? id := rfl

/-- Taking a channel away closes its context and leaves the others as they are. -/
theorem context?_disconnect {r r' : Registry} {name : String} (h : r.disconnect name = some r')
    (id : ContextId) :
    r'.context? id
      = if r.channel? name = some id then
          (r.context? id).map fun context => { context with phase := context.phase.close }
        else r.context? id := by
  obtain ⟨target, htarget, rfl⟩ := Option.map_eq_some_iff.mp h
  rw [context?_update, htarget]
  by_cases hid : id = target
  · simp [hid, context?]
  · simp [hid, Ne.symm hid, context?]

end Registry

/-! ### The changes of one context -/

/-- A context that stays as it is drifts, unless an ending came onto an armed one. -/
theorem Drift.same {ending : Option Ending} {context : Context}
    (h : context.IsArmed ∨ context.IsBare) (hnone : context.IsArmed → ending = none) :
    Drift ending (some context) (some context) := by
  obtain harmed | hbare := h
  · rw [hnone harmed]
    exact .kept harmed
  · exact .bare hbare hbare (.refl _)

/-- Arming does nothing to an armed context, and to a bare one all or nothing. -/
theorem drift_arm (session : Session) {context : Context}
    (h : context.IsArmed ∨ context.IsBare) :
    Drift none (some context) (some (context.arm session)) := by
  unfold Context.arm
  split
  · rename_i hname
    obtain harmed | hbare := h
    · -- An armed context has left the two phases from which it could be armed.
      have hrefused : context.install .remotePrograms
          = .error (.notAllowed
              "cannot await handshake: channel not in ChannelConnected state") := by
        have h₁ := harmed.ne_disconnected
        have h₂ := harmed.ne_channelConnected
        unfold Context.install Context.awaitingPhase Phase.awaitHandshake
        cases hphase : context.phase <;> simp_all [Except.map]
      rw [hrefused]
      exact .kept harmed
    · -- A bare context is armed before or after it is connected, and refused once it has ended.
      obtain hgoing | hphase := or_assoc.mpr hbare.phase_cases
      · have hinstalled : context.install .remotePrograms
            = .ok { context with
                phase := .awaitingHandshake
                handler := some .remotePrograms } := by
          obtain hphase | hphase := hgoing
          · simp [Context.install, Context.awaitingPhase, hphase, Except.map]
          · simp [Context.install, Context.awaitingPhase, Phase.awaitHandshake, hphase, Except.map]
        have hlive : context.phase.isTerminated = false := by
          obtain hphase | hphase := hgoing
          · rw [hphase]
            rfl
          · rw [hphase]
            rfl
        rw [hinstalled]
        exact .armed hbare ⟨hname, rfl, rfl, by simp, by simp⟩ hlive rfl
      · have hrefused : context.install .remotePrograms
            = .error (.notAllowed
                "cannot await handshake: channel not in ChannelConnected state") := by
          unfold Context.install Context.awaitingPhase Phase.awaitHandshake
          cases hphase' : context.phase <;> simp_all [Except.map, Phase.isTerminated]
        rw [hrefused]
        exact .bare hbare hbare (.refl _)
  · -- A channel of another name is not armed at all.
    exact .same h fun _ => rfl

/-- A context that fails drifts by a failure. -/
theorem drift_failed {context : Context} (h : context.IsArmed ∨ context.IsBare) :
    Drift (some .failed) (some context) (some { context with phase := .failed }) := by
  obtain harmed | hbare := h
  · exact .kept harmed
  · exact .bare hbare ⟨hbare.handler_eq, hbare.session_eq, .inr (.inr rfl)⟩ (.toFailed _)

/-- A context that is closed drifts by a closing. -/
theorem drift_close {context : Context} (h : context.IsArmed ∨ context.IsBare) :
    Drift (some .closed) (some context) (some { context with phase := context.phase.close }) := by
  obtain harmed | hbare := h
  · exact .kept harmed
  · refine .bare hbare ⟨hbare.handler_eq, hbare.session_eq, .inr (.inr ?_)⟩ (.close _)
    show context.phase.close.isTerminated
    unfold Phase.close
    split
    · rfl
    · rfl

/-! ### The changes of a registry -/

namespace Registry

variable {r r' : Registry} {endings : ContextId → Option Ending}

/-- A registry whose contexts stay as they are drifts without an ending. -/
theorem Drifts.of_eq (h : r.IsOrderly) (heq : ∀ id, r'.context? id = r.context? id) :
    r.Drifts r' fun _ => none := by
  intro id
  rw [heq]
  cases hcontext : r.context? id with
  | none => exact .absent
  | some context => exact .same (h id context hcontext) fun _ => rfl

/-- If nothing changes, only the context on which the ending came has to be looked at. -/
theorem Drifts.of_drift (h : r.IsOrderly) {target : ContextId} {ending : Option Ending}
    (hdrift : Drift ending (r.context? target) (r.context? target)) :
    r.Drifts r fun id => if target = id then ending else none := by
  intro id
  show Drift (if target = id then ending else none) _ _
  by_cases hid : target = id
  · rw [if_pos hid, ← hid]
    exact hdrift
  · rw [if_neg hid]
    exact Drifts.of_eq h (fun _ => rfl) id

/-- If one context changes, only this one has to be looked at. -/
theorem Drifts.of_update (h : r.IsOrderly) {target : ContextId} {ending : Option Ending}
    {f : Context → Context}
    (hdrift : ∀ context, r.context? target = some context →
      Drift ending (some context) (some (f context))) :
    r.Drifts (r.update target f) fun id => if target = id then ending else none := by
  intro id
  show Drift (if target = id then ending else none) _ _
  rw [context?_update]
  by_cases hid : id = target
  · subst hid
    rw [if_pos rfl, if_pos rfl]
    cases hcontext : r.context? id with
    | none => exact .absent
    | some context => exact hdrift context hcontext
  · rw [if_neg hid, if_neg (Ne.symm hid)]
    exact Drifts.of_eq h (fun _ => rfl) id

/-- A bare context may be added. -/
theorem Drifts.of_create (h : r.IsOrderly) {context : Context} (hbare : context.IsBare) :
    r.Drifts (r.create context) fun _ => none := by
  intro id
  rw [context?_create]
  by_cases hid : id = r.nextContext
  · rw [if_pos hid, hid, context?_nextContext]
    exact .made hbare
  · rw [if_neg hid]
    exact Drifts.of_eq h (fun _ => rfl) id

end Registry

/-! ### Stretches -/

/-- The opening that an activity belongs to. -/
def Activity.opening? : Activity → Option Opening
  | .opening o _ => some o
  | .sending o _ _ => some o
  | _ => none

/-- A progress that has nothing to do with an opening: none is left, and no record is sent. -/
structure Progress.IsQuiet (progress : Progress) : Prop where
  opening?_eq : progress.activity?.bind Activity.opening? = none
  not_send : ∀ id context transport order,
    progress.event? id ≠ some (.contact id (.send context transport order))

namespace Progress.IsQuiet

/-- A stretch that returns has nothing to do with an opening. -/
theorem returned (result : Result) : (Progress.returned result).IsQuiet where
  opening?_eq := rfl
  not_send _ _ _ _ h := by cases h

/-- Nor has one that goes on with an activity of another kind. -/
theorem continues {activity : Activity} (h : activity.opening? = none) :
    (Progress.continues activity).IsQuiet where
  opening?_eq := h
  not_send _ _ _ _ h := by cases h

/-- Nor has one that waits with an activity of another kind and asks for no record. -/
theorem waits {contact : Contact} {activity : Activity} (h : activity.opening? = none)
    (hcontact : ∀ context transport order, contact ≠ .send context transport order) :
    (Progress.waits contact activity).IsQuiet where
  opening?_eq := h
  not_send _ context transport order h := by
    cases h
    exact hcontact context transport order rfl

end Progress.IsQuiet

namespace Registry

/-- A stretch that begins an opening on a context, for a handshake. -/
def Begins (r : Registry) (id : ContextId) (stretch : Stretch) : Prop :=
  ∃ context session, r.context? id = some context ∧ context.IsArmed ∧
    (context.phase = .awaitingHandshake ∨ context.phase = .running) ∧
    context.session = some session ∧
    stretch = (r.setPhase id .handshakeInFlight,
      .continues (.opening ⟨id, context.transport, session, true⟩ session.settings.opening))

variable {r : Registry}

/-- A handshake begins an opening on an armed context or is refused. -/
theorem handshake_cases {id : ContextId} {context : Context}
    (hcontext : r.context? id = some context) (harmed : context.IsArmed) :
    r.Begins id (r.handshake id context) ∨
      (context.phase ≠ .awaitingHandshake ∧ context.phase ≠ .running ∧
        r.handshake id context
          = r.refuse (.notAllowed "cannot handshake: channel not awaiting a handshake")) := by
  obtain ⟨session, hsession⟩ := Option.isSome_iff_exists.mp harmed.session_isSome
  have hbegin : context.phase.beginHandshake = .ok .handshakeInFlight →
      r.handshake id context = (r.setPhase id .handshakeInFlight,
        .continues (.opening ⟨id, context.transport, session, true⟩ session.settings.opening)) := by
    intro hphase
    simp only [handshake, hphase, beginOpening, hsession]
  cases hphase : context.phase with
  -- Two phases let a handshake begin, and all others refuse it.
  | awaitingHandshake =>
    exact .inl ⟨context, session, hcontext, harmed, .inl hphase, hsession,
      hbegin (by rw [hphase]; rfl)⟩
  | running =>
    exact .inl ⟨context, session, hcontext, harmed, .inr hphase, hsession,
      hbegin (by rw [hphase]; rfl)⟩
  | _ =>
    refine .inr ⟨by simp, by simp, ?_⟩
    simp only [handshake, hphase, Phase.beginHandshake]

/-- What a report does: a failure ends the context, and a success does nothing. -/
theorem report_quiet (h : r.IsOrderly) (id : ContextId) (context : Context)
    (order : LaunchReport) :
    (r.report id context order).2.IsQuiet ∧
      r.Drifts (r.report id context order).1
        fun other => if id = other then (ServerOrder.launchReport order).ending? else none := by
  cases hsuccess : order.result.isSuccess with
  | true =>
    have hending : (ServerOrder.launchReport order).ending? = none := by
      simp only [ServerOrder.ending?, hsuccess, if_true]
    have hdone : r.report id context order = r.done := by
      simp only [report, hsuccess, if_true]
    simp only [hdone, hending, ite_self]
    exact ⟨.returned _, Drifts.of_eq h fun _ => rfl⟩
  | false =>
    -- The context fails before the session is told, so the ending does not wait for the outside.
    have hending : (ServerOrder.launchReport order).ending? = some .failed := by
      simp only [ServerOrder.ending?, hsuccess, Bool.false_eq_true, if_false]
    have hdrifts : r.Drifts (r.setPhase id .failed)
        fun other => if id = other then some .failed else none :=
      Drifts.of_update h fun c hc => drift_failed (h id c hc)
    rw [hending]
    simp only [report, hsuccess, Bool.false_eq_true, if_false]
    cases context.session with
    | none => exact ⟨.returned _, hdrifts⟩
    | some session => exact ⟨.waits rfl (by simp), hdrifts⟩

/-- What comes of an order of the server that is handed to a context. -/
theorem handle_cases (h : r.IsOrderly) {id : ContextId} {context : Context}
    (hcontext : r.context? id = some context) (order : ServerOrder) :
    (r.Begins id (r.handle id context order) ∧ order.ending? = none) ∨
      ((r.handle id context order).2.IsQuiet ∧
        r.Drifts (r.handle id context order).1
          fun other => if id = other then order.ending? else none) := by
  have hkeep : r.Drifts r fun other => if id = other then none else none := by
    simp only [ite_self]
    exact Drifts.of_eq h fun _ => rfl
  obtain harmed | hbare := h id context hcontext
  · have hhandshake : r.Begins id (r.handshake id context) ∨
        ((r.handshake id context).2.IsQuiet ∧
          r.Drifts (r.handshake id context).1 fun other => if id = other then none else none) := by
      obtain hbegins | ⟨-, -, hrefused⟩ := handshake_cases hcontext harmed
      · exact .inl hbegins
      · rw [hrefused]
        exact .inr ⟨.returned _, hkeep⟩
    unfold handle
    rw [harmed.handler_eq]
    cases order with
    | handshake order => exact hhandshake.imp_left fun hbegins => ⟨hbegins, rfl⟩
    | extendedHandshake order => exact hhandshake.imp_left fun hbegins => ⟨hbegins, rfl⟩
    | launchReport order => exact .inr (report_quiet h id context order)
    | other type body => exact .inr ⟨.returned _, hkeep⟩
  · -- Without a handler the order is dropped, so an ending in it has no effect.
    refine .inr ?_
    have hdropped : r.handle id context order = r.done := by
      unfold handle
      rw [hbare.handler_eq]
    rw [hdropped]
    refine ⟨.returned _, Drifts.of_drift h ?_⟩
    rw [hcontext]
    exact .bare hbare hbare (.refl _)

/-- What comes of a regular call on a context. -/
theorem call_cases (h : r.IsOrderly) {id : ContextId} {context : Context}
    (hcontext : r.context? id = some context) (request : ContextCall)
    (hregular : request.isRegular = true) :
    (r.Begins id (r.call id context request) ∧ request.ending? = none) ∨
      ((r.call id context request).2.IsQuiet ∧
        r.Drifts (r.call id context request).1
          fun other => if id = other then request.ending? else none) := by
  have hsame : ∀ c, r.context? id = some c → c = context := by
    intro c hc
    rw [hcontext] at hc
    exact (Option.some.inj hc).symm
  cases request with
  | dispatch order => exact handle_cases h hcontext order
  | report order => exact .inr (report_quiet h id context order)
  | arm session =>
    exact .inr ⟨.returned _, Drifts.of_update h fun c hc => drift_arm session (h id c hc)⟩
  | move transition =>
    cases transition with
    | connect =>
      refine .inr ?_
      cases hphase : context.phase with
      | disconnected =>
        -- Only a bare context is disconnected, and it stays bare.
        have hcall : r.call id context (.move .connect)
            = (r.setPhase id .channelConnected).done := by
          simp only [call, Phase.step, hphase, Phase.connect]
        rw [hcall]
        refine ⟨.returned _, Drifts.of_update h fun c hc => ?_⟩
        obtain rfl := hsame c hc
        obtain harmed | hbare := h id c hc
        · exact absurd hphase harmed.ne_disconnected
        · exact .bare hbare ⟨hbare.handler_eq, hbare.session_eq, .inr (.inl rfl)⟩
            (.of_going (by rw [hphase]; rfl) _)
      | _ =>
        -- In every other phase it is refused, and nothing changes.
        simp only [call, Phase.step, hphase, Phase.connect]
        refine ⟨.returned _, ?_⟩
        simp only [ContextCall.ending?, ite_self]
        exact Drifts.of_eq h fun _ => rfl
    | close =>
      refine .inr ⟨.returned _, Drifts.of_update h fun c hc => ?_⟩
      obtain rfl := hsame c hc
      exact drift_close (h id c hc)
    | _ => cases hregular
  -- What is left are the calls that bypass the library.
  | _ => cases hregular

/-- What comes of the first stretch of a regular operation. -/
theorem start_cases (h : r.IsOrderly) (operation : Operation)
    (hregular : operation.isRegular = true) :
    (∃ id, r.Begins id (operation.start r) ∧ ∀ other, r.ending? other operation = none) ∨
      ((operation.start r).2.IsQuiet ∧
        r.Drifts (operation.start r).1 fun id => r.ending? id operation) := by
  have hkeep : r.Drifts r fun _ => none := Drifts.of_eq h fun _ => rfl
  cases operation with
  | load name =>
    refine .inr ?_
    simp only [Operation.start]
    cases hload : r.load name with
    | ok loaded => exact ⟨.returned _, Drifts.of_eq h (context?_load hload)⟩
    | error cause => exact ⟨.returned _, hkeep⟩
  | loadRemotePrograms session =>
    refine .inr ?_
    simp only [Operation.start]
    cases hload : r.load remoteProgramsChannel with
    | ok loaded =>
      exact ⟨.returned _, Drifts.of_eq h fun id =>
        (context?_subscribe loaded _ id).trans (context?_load hload id)⟩
    | error cause => exact ⟨.returned _, hkeep⟩
  | subscribe id => exact .inr ⟨.returned _, Drifts.of_eq h fun _ => rfl⟩
  | connect name transport =>
    refine .inr ?_
    simp only [Operation.start, beginConnect]
    cases r.isLoaded name with
    | true => exact ⟨.continues rfl, Drifts.of_create h ⟨rfl, rfl, .inr (.inl rfl)⟩⟩
    | false => exact ⟨.returned _, hkeep⟩
  | create name transport =>
    exact .inr ⟨.returned _, Drifts.of_create h ⟨rfl, rfl, .inl rfl⟩⟩
  | disconnect name =>
    refine .inr ?_
    simp only [Operation.start, ending?]
    cases hdisconnect : r.disconnect name with
    | none =>
      -- There is no such channel.
      have hchannel : r.channel? name = none := Option.map_eq_none_iff.mp hdisconnect
      simp only [hchannel, reduceCtorEq, if_false]
      exact ⟨.returned _, hkeep⟩
    | some closed =>
      refine ⟨.returned _, fun id => ?_⟩
      show Drift (if r.channel? name = some id then some .closed else none) _ _
      rw [context?_disconnect hdisconnect]
      -- Only the context that the name stands for is closed.
      by_cases hchannel : r.channel? name = some id
      · rw [if_pos hchannel, if_pos hchannel]
        cases hcontext : r.context? id with
        | none => exact .absent
        | some context => exact drift_close (h id context hcontext)
      · rw [if_neg hchannel, if_neg hchannel]
        exact hkeep id
  | dispatch name order =>
    simp only [Operation.start, ending?]
    cases hchannel : r.channel? name with
    | none =>
      simp only [reduceCtorEq, if_false]
      exact .inr ⟨.returned _, hkeep⟩
    | some id =>
      simp only [Option.some.injEq]
      cases hcontext : r.context? id with
      | none =>
        -- An order to a number without a context cannot end anything.
        refine .inr ⟨.returned _, Drifts.of_drift h ?_⟩
        rw [hcontext]
        exact .absent
      | some context =>
        obtain ⟨hbegins, hending⟩ | hquiet := handle_cases h hcontext order
        · exact .inl ⟨id, hbegins, fun other => by rw [hending, ite_self]⟩
        · exact .inr hquiet
  | call id request =>
    simp only [Operation.start, ending?]
    cases hcontext : r.context? id with
    | none =>
      refine .inr ⟨.returned _, Drifts.of_drift h ?_⟩
      rw [hcontext]
      exact .absent
    | some context =>
      obtain ⟨hbegins, hending⟩ | hquiet := call_cases h hcontext request hregular
      · exact .inl ⟨id, hbegins, fun other => by rw [hending, ite_self]⟩
      · exact .inr hquiet
  | abort session reason message => exact .inr ⟨.waits rfl (by simp), hkeep⟩
  | lock session => exact .inr ⟨.continues rfl, hkeep⟩

/-- What comes of a later stretch outside openings. -/
theorem drifts_of_continues (h : r.IsOrderly) {free : SessionId → Bool} {activity : Activity}
    {stretch : Stretch} (hcontinues : activity.Continues free r stretch)
    (hopening : activity.opening? = none) :
    stretch.2.IsQuiet ∧ r.Drifts stretch.1 fun _ => none := by
  have hkeep : r.Drifts r fun _ => none := Drifts.of_eq h fun _ => rfl
  cases hcontinues with
  | blocked | sends | completes | sent | fails => cases hopening
  | called | aborted | unlocks => exact ⟨.returned _, hkeep⟩
  | publishes => exact ⟨.returned _, Drifts.of_eq h fun _ => rfl⟩
  | @arms name id session left =>
    -- This is where a connected channel is armed.
    have hdrifts := Drifts.of_update h fun c hc => drift_arm session (h id c hc)
    simp only [ite_self] at hdrifts
    exact ⟨.continues rfl, hdrifts⟩
  | shows | locks => exact ⟨.waits rfl (by simp), hkeep⟩
  | shown | queues => exact ⟨.continues rfl, hkeep⟩

end Registry

end RemotePrograms
