import RemotePrograms.Proofs.Channel.Routing

/-!
# `RemotePrograms.Proofs.Channel.Showings`: what is noted of subscribers

Two lists have to do with those who are told of new channels. The one in the registry is made by
the registrations of a run, in their order: `audience` reads it off the moves, and `subscribers_run`
says that the registry agrees. The other one is what a run shows to them. It is kept by
`Machine.record`, which goes through a run and keeps what is noted of its moves: to whom an activity
shows its channel (`Machine.showing?`), and how a subscriber leaves the context
(`Machine.handBack?`).

A showing is more than a note. A subscriber outside is asked to look at the channel, and nobody else
is (`filterMap_notify?`), and support for remote programs arms the context
(`registry_of_showing?`).
-/

set_option autoImplicit false

namespace RemotePrograms

/-! ### Registrations -/

/-- Whom a move puts on the list of those who are told of new channels. Support for remote programs
is put there only if it is available. -/
def Move.subscriber? (available : List String) : Move → Option Subscriber
  | .call (.subscribe id) => some (.custom id)
  | .call (.loadRemotePrograms session) =>
    if available.contains remoteProgramsChannel then some (.remotePrograms session) else none
  | _ => none

/-- Nobody is put on the list by a move that carries an activity on. -/
theorem Move.subscriber?_of_activity? {available : List String} {move : Move} {id : ActivityId}
    (hmove : move.activity? = some id) : move.subscriber? available = none := by
  cases move with
  | call operation => cases hmove
  | resume other | answer other reply => rfl

/-- Those whom these moves put on the list, in the order of the moves. -/
def audience (available : List String) (moves : List Move) : List Subscriber :=
  moves.filterMap (Move.subscriber? available)

/-- Those who are put on the list later come behind those who are on it. -/
theorem audience_append (available : List String) (moves later : List Move) :
    audience available (moves ++ later) = audience available moves ++ audience available later :=
  List.filterMap_append

/-- What the first stretch of an operation does to the list. -/
theorem Registry.subscribers_start (r : Registry) (operation : Operation) :
    (operation.start r).1.subscribers
      = r.subscribers ++ ((Move.call operation).subscriber? r.available).toList := by
  have hsame : ∀ {r' : Registry}, r.SameOffer r' → r'.subscribers = r.subscribers ++ [] := by
    intro r' h
    rw [h.subscribers_eq, List.append_nil]
  cases operation with
  | load name =>
    simp only [Operation.start]
    split
    · rename_i r' hload
      obtain ⟨-, loaded, rfl, -⟩ := load_cases hload
      exact (List.append_nil _).symm
    · exact hsame (.refl r)
  | loadRemotePrograms session =>
    simp only [Operation.start, Move.subscriber?]
    split
    · rename_i r' hload
      obtain ⟨havailable, loaded, rfl, -⟩ := load_cases hload
      rw [if_pos havailable]
      rfl
    · -- The session is not registered, for there is no support.
      rename_i cause hload
      rw [(load_error hload).1]
      exact hsame (.refl r)
  | subscribe id => rfl
  -- No other operation touches the list.
  | connect name transport =>
    simp only [Operation.start, beginConnect]
    split
    · exact (List.append_nil _).symm
    · exact hsame (.refl r)
  | create name transport => exact (List.append_nil _).symm
  | disconnect name =>
    simp only [Operation.start]
    split
    · rename_i r' hdisconnect
      obtain ⟨id, -, rfl⟩ := Option.map_eq_some_iff.mp hdisconnect
      exact (List.append_nil _).symm
    · exact hsame (.refl r)
  | dispatch name order =>
    simp only [Operation.start]
    split
    · exact hsame (.refl r)
    · split
      · exact hsame (.refl r)
      · exact hsame (r.confined_handle _ _ _).sameOffer
  | call id request =>
    simp only [Operation.start]
    split
    · exact hsame (.refl r)
    · exact hsame (r.confined_call _ _ _).sameOffer
  | abort session reason message => exact hsame (.refl r)
  | lock session => exact hsame (.refl r)

namespace Machine

/-- Only a registration changes the list, and it changes it at the end. -/
theorem subscribers_step (m : Machine) (move : Move) :
    (m.step move).1.registry.subscribers
      = m.registry.subscribers ++ (move.subscriber? m.registry.available).toList := by
  have hsteps := m.registry_step move
  generalize (m.step move).1.registry = r' at hsteps ⊢
  cases hsteps with
  | idle hmove => rw [Move.subscriber?_of_activity? hmove, Option.toList_none, List.append_nil]
  | call operation => exact m.registry.subscribers_start operation
  | continues hmove hcontinues =>
    rw [Move.subscriber?_of_activity? hmove, Option.toList_none, List.append_nil]
    exact (Registry.SameOffer.of_continues hcontinues).subscribers_eq

/-- The list is made by the registrations, in their order. -/
theorem subscribers_run (m : Machine) (moves : List Move) :
    (m.run moves).1.registry.subscribers
      = m.registry.subscribers ++ audience m.registry.available moves := by
  induction moves generalizing m with
  | nil => exact (List.append_nil _).symm
  | cons move moves ih =>
    -- What is available does not change, so it may be read at the start of the run.
    have havailable := (extends_step m move).available_eq
    show ((m.step move).1.run moves).1.registry.subscribers = _
    rw [ih, subscribers_step, havailable, audience, audience, List.filterMap_eq_flatMap_toList,
      List.filterMap_eq_flatMap_toList, List.flatMap_cons, List.append_assoc]

end Machine

/-! ### What is noted of a run -/

/-- A subscriber is shown a new channel. -/
structure Showing where
  subscriber : Subscriber
  context : ContextId
  /-- The context as it is then. -/
  seen : Option Context
  deriving DecidableEq

/-- The context and the subscriber, if it is one that is asked from outside. -/
def Showing.notify? (showing : Showing) : Option (ContextId × Nat) :=
  match showing.subscriber with
  | .custom id => some (showing.context, id)
  | .remotePrograms _ => none

/-- The context and the subscriber that an activity asks from outside. -/
def Event.notify? (id : ActivityId) : Event → Option (ContextId × Nat)
  | .contact other (.notify c subscriber) => if other = id then some (c, subscriber) else none
  | _ => none

namespace Machine

/-- What is noted of the moves of a run, one after another. -/
def record {α : Type} (note : Machine → Move → Option α) (m : Machine) : List Move → List α
  | [] => []
  | move :: moves => (note m move).toList ++ record note (m.step move).1 moves

/-- To whom an activity shows its channel in a move. -/
def showing? (id : ActivityId) (m : Machine) : Move → Option Showing
  | .resume other =>
    if other = id then
      match m.activity? id with
      | some (.notifying _ c (subscriber :: _)) => some ⟨subscriber, c, m.registry.context? c⟩
      | _ => none
    else none
  | _ => none

/-- What a subscriber makes of the context that an activity shows, if its turn ends with the move.
Support for remote programs has its turn in one move, anybody else until the outside answers. -/
def handBack? (id : ActivityId) (m : Machine) : Move → Option Context
  | .resume other =>
    if other = id then
      match m.activity? id with
      | some (.notifying _ c (.remotePrograms _ :: _)) =>
        (m.step (.resume other)).1.registry.context? c
      | _ => none
    else none
  | .answer other reply =>
    if other = id then
      match m.activity? id with
      | some (.notified _ c _) => (m.step (.answer other reply)).1.registry.context? c
      | _ => none
    else none
  | .call _ => none

end Machine

/-! ### Who is asked from outside -/

/-- The context and the subscriber that a stretch ends with asking from outside. -/
def Progress.notify? : Progress → Option (ContextId × Nat)
  | .waits (.notify c subscriber) _ => some (c, subscriber)
  | _ => none

/-- The context and the subscriber that an activity is about to ask from outside. -/
def Activity.notify? : Activity → Option (ContextId × Nat)
  | .notifying _ c (.custom subscriber :: _) => some (c, subscriber)
  | _ => none

/-- What a stretch asks of a subscriber is seen as coming from its own activity. -/
theorem Progress.notify?_event? (progress : Progress) (id other : ActivityId) :
    (progress.event? other).bind (Event.notify? id)
      = if other = id then progress.notify? else none := by
  cases progress with
  | returned result => simp [event?, Event.notify?, notify?]
  | continues activity => simp [event?, notify?]
  | waits contact activity => cases contact <;> simp [event?, Event.notify?, notify?]

/-- No subscriber is asked on behalf of a context. -/
theorem Progress.Serves.notify?_eq {progress : Progress} {c : ContextId} (h : progress.Serves c) :
    progress.notify? = none := by
  cases h with
  | returned result => rfl
  | continues _ => rfl
  | waits hcontact _ => cases hcontact <;> rfl

/-- No operation asks anybody in its first stretch. -/
theorem Operation.notify?_start (r : Registry) (operation : Operation) :
    (operation.start r).2.notify? = none := by
  have hstarts := operation.starts r
  generalize operation.start r = stretch at hstarts ⊢
  cases hstarts with
  | handles => exact (Registry.serves_call _ _ (.dispatch _)).notify?_eq
  | calls => exact (Registry.serves_call _ _ _).notify?_eq
  | _ => rfl

namespace Activity

/-- A later stretch asks a subscriber exactly if it is the turn of one from outside. -/
theorem notify?_of_continues {free : SessionId → Bool} {r : Registry} {activity : Activity}
    {stretch : Stretch} (h : activity.Continues free r stretch) :
    stretch.2.notify? = activity.notify? := by
  cases h with
  | @completes o =>
    obtain ⟨result, hreturns⟩ := r.completeOpening_returns o
    rw [hreturns]
    rfl
  | _ => rfl

/-- An activity that waits for the outside is not about to ask a subscriber. -/
theorem notify?_of_isOutside {activity : Activity} (h : activity.isOutside = true) :
    activity.notify? = none := by
  cases activity with
  | notifying => cases h
  | _ => rfl

end Activity

namespace Machine

variable {m : Machine} {id : ActivityId}

/-- A subscriber who is asked from outside is asked by the activity that shows its channel. -/
theorem notify?_showing? (m : Machine) (id other : ActivityId) :
    (m.showing? id (.resume other)).bind Showing.notify?
      = if other = id then (m.activity? id).bind Activity.notify? else none := by
  simp only [showing?]
  split
  · cases m.activity? id with
    | none => rfl
    | some activity =>
      cases activity with
      | notifying name c left =>
        cases left with
        | nil => rfl
        | cons subscriber left => cases subscriber <;> rfl
      | _ => rfl
  · rfl

/-- A move asks a subscriber from outside exactly if it shows the channel to it. -/
theorem notify?_step (id : ActivityId) (m : Machine) (move : Move) :
    (m.step move).2.bind (Event.notify? id) = (m.showing? id move).bind Showing.notify? := by
  cases move with
  | call operation =>
    rw [event_step_call, Progress.notify?_event?, Operation.notify?_start, ite_self]
    rfl
  | resume other =>
    rw [notify?_showing?]
    obtain ⟨activity, hactivity, hout, hstep⟩ | ⟨houtside, hstep⟩ := resume_cases m other
    · have hcontinues :=
        Activity.continues_resume m.registry (fun session => !m.holds session) hout
      rw [hstep, event_enter, Progress.notify?_event?, Activity.notify?_of_continues hcontinues]
      split
      · rename_i hid
        rw [← hid, hactivity]
        rfl
      · rfl
    · -- Whoever waits for the outside asks nobody else.
      rw [hstep]
      split
      · rename_i hid
        subst hid
        cases hactivity : m.activity? other with
        | none => rfl
        | some activity => exact (Activity.notify?_of_isOutside (houtside activity hactivity)).symm
      · rfl
  | answer other reply =>
    show _ = none
    obtain ⟨activity, -, hout, hstep⟩ | ⟨-, hstep⟩ := answer_cases m other reply
    · have hcontinues := Activity.continues_answer m.registry (fun _ => true) reply hout
      rw [hstep, event_enter, Progress.notify?_event?, Activity.notify?_of_continues hcontinues,
        Activity.notify?_of_isOutside hout, ite_self]
    · rw [hstep]
      rfl

/-- Those who are asked from outside are those among the subscribers who can be, in the same
order. -/
theorem filterMap_notify? (id : ActivityId) (m : Machine) (moves : List Move) :
    (m.run moves).2.filterMap (Event.notify? id)
      = (m.record (showing? id) moves).filterMap Showing.notify? := by
  induction moves generalizing m with
  | nil => rfl
  | cons move moves ih =>
    have htoList : ∀ {α β : Type} (f : α → Option β) (entry : Option α),
        entry.toList.filterMap f = (entry.bind f).toList := by
      intro α β f entry
      cases entry with
      | none => rfl
      | some entry => cases hentry : f entry <;> simp [hentry]
    rw [run_cons, record, List.filterMap_append, List.filterMap_append, ih, htoList, htoList,
      notify?_step]

/-- To tell support for remote programs is to arm the context. -/
theorem registry_of_showing? {move : Move} {session : Session} {c : ContextId}
    {seen : Option Context}
    (h : m.showing? id move = some ⟨.remotePrograms session, c, seen⟩) :
    (m.step move).1.registry = m.registry.update c (Context.arm session) := by
  cases move with
  | call operation => cases h
  | answer other reply => cases h
  | resume other =>
    simp only [showing?] at h
    split at h
    · rename_i hid
      subst hid
      split at h
      · rename_i name c' subscriber left hactivity
        cases h
        rw [step_resume hactivity rfl, registry_enter]
        rfl
      · cases h
    · cases h

end Machine

end RemotePrograms
