import RemotePrograms.Proofs.Channel.Steps

/-!
# `RemotePrograms.Proofs.Channel.Continues`: the later stretches of an operation

What is left of an operation goes on by itself or with a reply of the outside. `Activity.Continues`
lists what can come of such a stretch, and `continues_resume` and `continues_answer` say that
nothing else can. `Machine.carries_cases` says it of a move: it enters such a stretch of the
activity that it names, or it does nothing. So what later stretches do to the channels takes one
case for each thing that can happen, whether the outside was asked or not.

What concerns the registry alone goes by `Machine.registry_step`, which puts first stretches and
later ones side by side.
-/

set_option autoImplicit false

namespace RemotePrograms

/-- What a later stretch of an operation can be. `free` says whose write lock is free. -/
inductive Activity.Continues (free : SessionId → Bool) (r : Registry) : Activity → Stretch → Prop
    where
  /-- The next record of an opening needs a lock that somebody else has. -/
  | blocked {o : Opening} {order : ClientOrder} {left : List ClientOrder} :
      free o.session.id = false →
      Continues free r (.opening o (order :: left)) (r, .continues (.opening o (order :: left)))
  /-- The next record of an opening is handed to the transport. -/
  | sends {o : Opening} {order : ClientOrder} {left : List ClientOrder} :
      free o.session.id = true →
      Continues free r (.opening o (order :: left))
        (r, .waits (.send o.context o.transport order) (.sending o order left))
  /-- All records of an opening were sent. -/
  | completes {o : Opening} : Continues free r (.opening o []) (r.completeOpening o)
  /-- A record was sent. -/
  | sent {o : Opening} {order : ClientOrder} {left : List ClientOrder} :
      Continues free r (.sending o order left) (r, .continues (.opening o left))
  /-- A record was not sent. -/
  | fails {o : Opening} {order : ClientOrder} {left : List ClientOrder} (cause : Error) :
      Continues free r (.sending o order left) (r.failOpening o.context o.guarded cause)
  /-- Callbacks are through with their order. -/
  | called (result : Result) : Continues free r .calling (r, .returned result)
  /-- A session is ended. -/
  | aborted : Continues free r .aborting r.done
  /-- All subscribers have seen the new channel. -/
  | publishes {name : String} {c : ContextId} :
      Continues free r (.notifying name c []) (r.publish name c, .returned (.ok (.context c)))
  /-- Support for remote programs is told of the new channel. -/
  | arms {name : String} {c : ContextId} {session : Session} {left : List Subscriber} :
      Continues free r (.notifying name c (.remotePrograms session :: left))
        (r.update c (Context.arm session), .continues (.notifying name c left))
  /-- The new channel is shown to somebody else. -/
  | shows {name : String} {c : ContextId} {subscriber : Nat} {left : List Subscriber} :
      Continues free r (.notifying name c (.custom subscriber :: left))
        (r, .waits (.notify c subscriber) (.notified name c left))
  /-- A subscriber has looked at the new channel. -/
  | shown {name : String} {c : ContextId} {left : List Subscriber} :
      Continues free r (.notified name c left) (r, .continues (.notifying name c left))
  /-- A lock that is asked for is not free. -/
  | queues {session : SessionId} :
      free session = false →
      Continues free r (.acquiring session) (r, .continues (.acquiring session))
  /-- A lock is taken. -/
  | locks {session : SessionId} :
      free session = true →
      Continues free r (.acquiring session) (r, .waits (.locked session) (.holding session))
  /-- A lock is given back. -/
  | unlocks {session : SessionId} : Continues free r (.holding session) r.done

namespace Activity

variable (r : Registry) (free : SessionId → Bool) {activity : Activity}

/-- The next stretch of an activity that does not wait for the outside is one of these. -/
theorem continues_resume (hout : activity.isOutside = false) :
    activity.Continues free r (activity.resume free r) := by
  cases activity with
  | opening o left =>
    cases left with
    | nil => exact .completes
    | cons order left =>
      simp only [resume]
      split
      · exact .sends ‹_›
      · exact .blocked (Bool.eq_false_iff.mpr ‹_›)
  | notifying name c left =>
    -- Support for remote programs is told at once, anybody else is asked from outside.
    match left with
    | [] => exact .publishes
    | .remotePrograms session :: left => exact .arms
    | .custom subscriber :: left => exact .shows
  | acquiring session =>
    simp only [resume]
    split
    · exact .locks ‹_›
    · exact .queues (Bool.eq_false_iff.mpr ‹_›)
  | sending | calling | aborting | notified | holding => cases hout

/-- The next stretch of an activity that has its reply is one of these, and no lock plays a part in
it. -/
theorem continues_answer (reply : Except Error Unit) (hout : activity.isOutside = true) :
    activity.Continues free r (activity.answer reply r) := by
  cases activity with
  | sending o order left =>
    cases reply with
    | ok _ => exact .sent
    | error cause => exact .fails cause
  | calling =>
    cases reply with
    | ok _ => exact .called _
    | error cause => exact .called _
  | aborting => exact .aborted
  | notified name c left => exact .shown
  | holding session => exact .unlocks
  | opening | notifying | acquiring => cases hout

end Activity

namespace Machine

/-- A move that names an activity enters one of its later stretches, or it does nothing. -/
theorem carries_cases (m : Machine) {move : Move} {id : ActivityId}
    (hmove : move.activity? = some id) :
    (∃ activity stretch, m.activity? id = some activity ∧
      activity.Continues (fun session => !m.holds session) m.registry stretch ∧
      m.step move = (m.numbered move).enter id stretch) ∨ m.step move = (m, none) := by
  cases move with
  | call operation => cases hmove
  | resume other =>
    cases hmove
    obtain ⟨activity, hactivity, hout, hstep⟩ | ⟨-, hstep⟩ := resume_cases m id
    · exact .inl ⟨activity, _, hactivity, Activity.continues_resume _ _ hout, hstep⟩
    · exact .inr hstep
  | answer other reply =>
    cases hmove
    obtain ⟨activity, hactivity, hout, hstep⟩ | ⟨-, hstep⟩ := answer_cases m id reply
    · exact .inl ⟨activity, _, hactivity, Activity.continues_answer _ _ reply hout, hstep⟩
    · exact .inr hstep

end Machine

/-- What a move can make of a registry. -/
inductive Registry.Steps (r : Registry) : Move → Registry → Prop where
  /-- The move does not fit the activity that it names. -/
  | idle {move : Move} {id : ActivityId} : move.activity? = some id → Steps r move r
  /-- An operation begins. -/
  | call (operation : Operation) : Steps r (.call operation) (operation.start r).1
  /-- An operation goes on. -/
  | continues {move : Move} {id : ActivityId} {free : SessionId → Bool} {activity : Activity}
      {stretch : Stretch} :
      move.activity? = some id → activity.Continues free r stretch → Steps r move stretch.1

/-- Whatever a move makes of the registry, a stretch has made it, or nothing has changed. -/
theorem Machine.registry_step (m : Machine) (move : Move) :
    m.registry.Steps move (m.step move).1.registry := by
  cases hmove : move.activity? with
  | none =>
    cases move with
    | call operation =>
      rw [step_call, registry_enter]
      exact .call operation
    | resume id | answer id reply => cases hmove
  | some id =>
    obtain ⟨activity, stretch, -, hcontinues, hstep⟩ | hstep := m.carries_cases hmove
    · rw [hstep, registry_enter]
      exact .continues hmove hcontinues
    · rw [hstep]
      exact .idle hmove

end RemotePrograms
