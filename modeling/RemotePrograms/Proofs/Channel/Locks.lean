import RemotePrograms.Proofs.Channel.Journal
import RemotePrograms.Proofs.Channel.Stretches

/-!
# `RemotePrograms.Proofs.Channel.Locks`: who has which write lock

A write lock is with an activity, and there is no other record of it. `Machine.lockOf?` is the lock
that an activity has. `Machine.Locking` sorts the moves of any machine by what they do with locks:
a lock that is free goes to an opening that hands a record to its transport, or to somebody who
asked for the lock, and any other stretch leaves its activity without one. It was the reply of the
outside that took it back, if there was one.

Whoever has a lock keeps it until the reply comes, and does nothing else meanwhile
(`IsKeyed.keeps_run`), and the reply takes it back (`Locking.gives`).
-/

set_option autoImplicit false

namespace RemotePrograms

/-! ### Stretches -/

/-- No lock is left to the activity, and no record is handed to a transport. -/
structure Progress.IsFree (progress : Progress) : Prop where
  lock?_eq : progress.activity?.bind Activity.lock? = none
  attempt?_eq : ∀ id, (progress.event? id).bind Event.attempt? = none

namespace Progress.IsFree

/-- Nothing is left when an operation returns, so nobody has a lock. -/
theorem returned (result : Result) : (Progress.returned result).IsFree :=
  ⟨rfl, fun _ => rfl⟩

/-- Whoever goes on without a lock does not hold one. -/
theorem continues {activity : Activity} (h : activity.lock? = none) :
    (Progress.continues activity).IsFree :=
  ⟨h, fun _ => rfl⟩

/-- Whoever waits without a lock, and not for a record, does not hold one. -/
theorem waits {contact : Contact} {activity : Activity} (h : activity.lock? = none)
    (hcontact : contact.record? = none) : (Progress.waits contact activity).IsFree := by
  refine ⟨h, fun id => ?_⟩
  cases contact with
  | send => cases hcontact
  | _ => rfl

end Progress.IsFree

/-- A stretch that begins an opening for the session of its context, or has nothing to do with
openings. Neither takes a lock. -/
inductive Stretch.IsFirst : Stretch → Prop where
  | opens {r : Registry} {o : Opening} (left : List ClientOrder) :
      (r.context? o.context).bind Context.session = some o.session →
      IsFirst (r, .continues (.opening o left))
  | other {r : Registry} {progress : Progress} : progress.IsFree →
      progress.activity?.bind Activity.opening? = none → IsFirst (r, progress)

namespace Registry

variable {r : Registry} {c : ContextId} {context : Context}

/-- An operation that returns at once begins no opening. -/
theorem isFirst_returned (r : Registry) (result : Result) :
    Stretch.IsFirst (r, .returned result) :=
  .other (.returned result) rfl

/-- A call on a context begins an opening for the session of that context, or none. -/
theorem isFirst_call (hcontext : r.context? c = some context) (request : ContextCall) :
    Stretch.IsFirst (r.call c context request) := by
  have hstarts := request.starts r c context
  generalize r.call c context request = stretch at hstarts ⊢
  cases hstarts with
  | @opens request phase session _ hsession =>
    -- The phase is another one, the session is that of the context.
    refine .opens _ ?_
    rw [context?_setPhase_self hcontext]
    exact hsession
  | sends hsession =>
    refine .opens _ ?_
    rw [hcontext]
    exact hsession
  | hands | aborts => exact .other (.waits rfl rfl) rfl
  | _ => exact isFirst_returned _ _

end Registry

/-- An operation begins an opening for the session of its context, or none. -/
theorem Operation.isFirst_start (r : Registry) (operation : Operation) :
    Stretch.IsFirst (operation.start r) := by
  have hstarts := operation.starts r
  generalize operation.start r = stretch at hstarts ⊢
  cases hstarts with
  | connects => exact .other (.continues rfl) rfl
  | handles _ hcontext => exact Registry.isFirst_call hcontext (.dispatch _)
  | calls hcontext => exact Registry.isFirst_call hcontext _
  | aborts => exact .other (.waits rfl rfl) rfl
  | locks => exact .other (.continues rfl) rfl
  | _ => exact Registry.isFirst_returned _ _

/-- The first stretch of an operation takes no lock. -/
theorem Stretch.IsFirst.isFree {stretch : Stretch} (h : IsFirst stretch) : stretch.2.IsFree := by
  cases h with
  | opens left => exact .continues rfl
  | other hfree => exact hfree

namespace Activity

/-- A later stretch leaves an activity without a lock, unless it hands over a record or gets the
lock that it asked for. -/
theorem isFree_of_continues {free : SessionId → Bool} {r : Registry} {activity : Activity}
    {stretch : Stretch} (h : activity.Continues free r stretch) :
    stretch.2.IsFree ∨
      (∃ o order left, activity = .opening o (order :: left) ∧ free o.session.id = true ∧
        stretch = (r, .waits (.send o.context o.transport order) (.sending o order left))) ∨
      ∃ session, activity = .acquiring session ∧ free session = true ∧
        stretch = (r, .waits (.locked session) (.holding session)) := by
  cases h with
  | sends hfree => exact .inr (.inl ⟨_, _, _, rfl, hfree, rfl⟩)
  | locks hfree => exact .inr (.inr ⟨_, rfl, hfree, rfl⟩)
  | blocked | sent | arms | shown | queues => exact .inl (.continues rfl)
  | shows => exact .inl (.waits rfl rfl)
  | completes =>
    obtain ⟨result, hreturns⟩ := r.completeOpening_returns _
    refine .inl ?_
    rw [hreturns]
    exact .returned result
  | fails | called | aborted | publishes | unlocks => exact .inl (.returned _)

/-- A later stretch of an opening belongs to the same opening, and no other activity becomes one. -/
theorem opening?_of_continues {free : SessionId → Bool} {r : Registry} {activity later : Activity}
    {stretch : Stretch} (h : activity.Continues free r stretch)
    (hlater : stretch.2.activity? = some later) : later.opening? = activity.opening? := by
  cases h with
  | completes =>
    obtain ⟨result, hreturns⟩ := r.completeOpening_returns _
    rw [hreturns] at hlater
    cases hlater
  | fails | called | aborted | publishes | unlocks => cases hlater
  | _ =>
    cases hlater
    rfl

end Activity

/-! ### Moves -/

/-- The activity that a move replies to. -/
def Move.answered? : Move → Option ActivityId
  | .answer id _ => some id
  | _ => none

/-- The activity that an event comes from. -/
def Event.activity : Event → ActivityId
  | .contact id _ | .returned id _ => id

/-- What a stretch shows comes from its own activity. -/
theorem Progress.activity_of_event? {progress : Progress} {id : ActivityId} {event : Event}
    (h : progress.event? id = some event) : event.activity = id := by
  cases progress <;> cases h <;> rfl

namespace Machine

variable {m : Machine} {id : ActivityId}

/-- The session whose write lock an activity has. -/
def lockOf? (m : Machine) (id : ActivityId) : Option SessionId :=
  (m.activity? id).bind Activity.lock?

/-- A stretch decides on the lock of its own activity and of no other. -/
theorem lockOf?_enter (m : Machine) (id other : ActivityId) (stretch : Stretch) :
    (m.enter id stretch).1.lockOf? other
      = if other = id then stretch.2.activity?.bind Activity.lock? else m.lockOf? other := by
  unfold lockOf?
  rw [activity?_enter]
  split
  · rfl
  · rfl

/-- To take a number is to take no lock. -/
theorem lockOf?_numbered (m : Machine) (move : Move) (id : ActivityId) :
    (m.numbered move).lockOf? id = m.lockOf? id := by
  unfold lockOf?
  rw [activity?_numbered]

/-- Each activity stands in the table once, under a number that was given out. -/
structure IsKeyed (m : Machine) : Prop where
  nodup : (m.activities.map Prod.fst).Nodup
  fresh : ∀ id, m.nextActivity ≤ id → m.activity? id = none

/-- On a new connection the table of activities is empty. -/
theorem isKeyed_ofRegistry (registry : Registry) : (ofRegistry registry).IsKeyed :=
  ⟨List.nodup_nil, fun _ _ => rfl⟩

/-- A stretch enters its activity once, for it takes the old entry out. -/
theorem IsKeyed.enter (h : m.IsKeyed) (hid : id < m.nextActivity) (stretch : Stretch) :
    (m.enter id stretch).1.IsKeyed := by
  -- The old entry goes before the new one is made.
  have hdrop : ((m.activities.filter (·.1 ≠ id)).map Prod.fst).Nodup :=
    h.nodup.sublist (List.filter_sublist.map _)
  have hkeep : ∀ activity : Activity,
      (((id, activity) :: m.activities.filter (·.1 ≠ id)).map Prod.fst).Nodup := by
    intro activity
    refine List.nodup_cons.mpr ⟨fun hmem => ?_, hdrop⟩
    obtain ⟨entry, hentry, heq⟩ := List.mem_map.mp hmem
    simpa [heq] using (List.mem_filter.mp hentry).2
  refine ⟨?_, fun other hother => ?_⟩
  · obtain ⟨registry, progress⟩ := stretch
    cases progress with
    | returned result => exact hdrop
    | continues activity => exact hkeep activity
    | waits contact activity => exact hkeep activity
  · rw [nextActivity_enter] at hother
    rw [activity?_enter_ne _ _ (Nat.ne_of_gt (Nat.lt_of_lt_of_le hid hother))]
    exact h.fresh other hother

/-- The number of an activity in the table was given out. -/
theorem IsKeyed.lt_next (h : m.IsKeyed) {activity : Activity}
    (hactivity : m.activity? id = some activity) : id < m.nextActivity := by
  refine Nat.lt_of_not_le fun hle => ?_
  rw [h.fresh id hle] at hactivity
  cases hactivity

/-- A move keeps the table in order. -/
theorem IsKeyed.step (h : m.IsKeyed) (move : Move) : (m.step move).1.IsKeyed := by
  cases hmove : move.activity? with
  | none =>
    cases move with
    | call operation =>
      have hnumbered : (m.numbered (.call operation)).IsKeyed :=
        ⟨h.nodup, fun id hid => h.fresh id (Nat.le_of_succ_le hid)⟩
      rw [step_call]
      exact hnumbered.enter (Nat.lt_succ_self _) _
    | resume id | answer id reply => cases hmove
  | some id =>
    obtain ⟨activity, stretch, hactivity, -, hstep⟩ | hstep := m.carries_cases hmove
    · rw [hstep, numbered_of_activity? m hmove]
      exact h.enter (h.lt_next hactivity) _
    · rw [hstep]
      exact h

/-- What stands in the table is found there. -/
theorem lookup_of_mem {entries : List (ActivityId × Activity)}
    (hnodup : (entries.map Prod.fst).Nodup) {entry : ActivityId × Activity}
    (hentry : entry ∈ entries) : entries.lookup entry.1 = some entry.2 := by
  induction entries with
  | nil => cases hentry
  | cons head tail ih =>
    obtain ⟨hnot, htail⟩ := List.nodup_cons.mp hnodup
    obtain rfl | hmem := List.mem_cons.mp hentry
    · exact List.lookup_cons_self
    · have hne : (entry.1 == head.1) = false := by
        refine beq_eq_false_iff_ne.mpr fun heq => hnot ?_
        rw [← heq]
        exact List.mem_map_of_mem hmem
      rw [List.lookup_cons, hne]
      exact ih htail hmem

/-- A lock is held if some activity has it. -/
theorem IsKeyed.holds_iff (h : m.IsKeyed) (session : SessionId) :
    m.holds session = true ↔ ∃ id, m.lockOf? id = some session := by
  unfold holds lockOf? activity?
  rw [List.any_eq_true]
  constructor
  · rintro ⟨entry, hentry, hlock⟩
    refine ⟨entry.1, ?_⟩
    rw [lookup_of_mem h.nodup hentry]
    simpa using hlock
  · rintro ⟨id, hlock⟩
    obtain ⟨activity, hactivity, hlock⟩ := Option.bind_eq_some_iff.mp hlock
    obtain ⟨before, later, heq, -⟩ := List.lookup_eq_some_iff.mp hactivity
    exact ⟨(id, activity), by rw [heq]; simp, by simpa using hlock⟩

/-- What a move does with locks. -/
inductive Locking (m : Machine) (move : Move) : Prop where
  | idle : m.step move = (m, none) → (∀ id, move.answered? = some id → m.lockOf? id = none) →
      Locking m move
  /-- The activity has no lock behind the stretch, and if it had one before, this was the reply. -/
  | frees {id : ActivityId} {stretch : Stretch} :
      m.step move = (m.numbered move).enter id stretch → stretch.2.IsFree →
      (∀ other, move.answered? = some other → other = id) →
      (m.lockOf? id = none ∨ move.answered? = some id) → Locking m move
  | sends {id : ActivityId} {o : Opening} {order : ClientOrder} {left : List ClientOrder} :
      move = .resume id → m.activity? id = some (.opening o (order :: left)) →
      m.holds o.session.id = false →
      m.step move = m.enter id
        (m.registry, .waits (.send o.context o.transport order) (.sending o order left)) →
      Locking m move
  | locks {id : ActivityId} {session : SessionId} :
      move = .resume id → m.activity? id = some (.acquiring session) → m.holds session = false →
      m.step move = m.enter id (m.registry, .waits (.locked session) (.holding session)) →
      Locking m move

/-- Every move does one of these. -/
theorem IsKeyed.locking (h : m.IsKeyed) (move : Move) : m.Locking move := by
  cases move with
  | call operation =>
    refine .frees (step_call m operation) (operation.isFirst_start m.registry).isFree
      (fun other hother => by cases hother) (.inl ?_)
    unfold lockOf?
    rw [h.fresh _ (Nat.le_refl _)]
    rfl
  | resume id =>
    obtain ⟨activity, hactivity, hout, hstep⟩ | ⟨-, hstep⟩ := resume_cases m id
    · obtain hfree | ⟨o, order, left, rfl, hfree, heq⟩ | ⟨session, rfl, hfree, heq⟩ :=
        Activity.isFree_of_continues
          (Activity.continues_resume m.registry (fun session => !m.holds session) hout)
      · refine .frees hstep hfree (fun other hother => by cases hother) (.inl ?_)
        unfold lockOf?
        rw [hactivity]
        exact Activity.lock?_of_not_isOutside hout
      · rw [heq] at hstep
        exact .sends rfl hactivity (by simpa using hfree) hstep
      · rw [heq] at hstep
        exact .locks rfl hactivity (by simpa using hfree) hstep
    · exact .idle hstep fun other hother => by cases hother
  | answer id reply =>
    obtain ⟨activity, hactivity, hout, hstep⟩ | ⟨hidle, hstep⟩ := answer_cases m id reply
    · have hcontinues := Activity.continues_answer m.registry (fun _ => true) reply hout
      obtain hfree | ⟨o, order, left, rfl, -⟩ | ⟨session, rfl, -⟩ :=
        Activity.isFree_of_continues hcontinues
      · -- Whatever the reply is, the lock goes.
        exact .frees hstep hfree (fun other hother => (Option.some.inj hother).symm) (.inr rfl)
      · cases hout
      · cases hout
    · refine .idle hstep fun other hother => ?_
      cases hother
      unfold lockOf?
      cases hactivity : m.activity? id with
      | none => rfl
      | some activity => exact Activity.lock?_of_not_isOutside (hidle activity hactivity)

/-- A lock that an activity gets was free, and was asked for by a record or for its own sake. -/
theorem Locking.acquires {move : Move} (h : m.Locking move) {session : SessionId}
    (hbefore : m.lockOf? id ≠ some session)
    (hafter : (m.step move).1.lockOf? id = some session) :
    m.holds session = false ∧ ∃ contact, (m.step move).2 = some (.contact id contact) ∧
      (contact = .locked session ∨ ∃ c transport order, contact = .send c transport order) := by
  cases h with
  | idle hstep =>
    rw [hstep] at hafter
    exact absurd hafter hbefore
  -- A stretch that takes no lock leaves its own activity without one.
  | @frees other stretch hstep hfree =>
    rw [hstep, lockOf?_enter] at hafter
    split at hafter
    · rw [hfree.lock?_eq] at hafter
      cases hafter
    · rw [lockOf?_numbered] at hafter
      exact absurd hafter hbefore
  -- A lock that is new belongs to the activity whose stretch this is.
  | @sends other o order left _ _ hholds hstep =>
    rw [hstep, lockOf?_enter] at hafter
    rw [hstep]
    split at hafter
    · rename_i hid
      subst hid
      cases hafter
      exact ⟨hholds, _, rfl, .inr ⟨_, _, _, rfl⟩⟩
    · exact absurd hafter hbefore
  | @locks other session' _ _ hholds hstep =>
    rw [hstep, lockOf?_enter] at hafter
    rw [hstep]
    split at hafter
    · rename_i hid
      subst hid
      cases hafter
      exact ⟨hholds, _, rfl, .inl rfl⟩
    · exact absurd hafter hbefore

/-- A record that is handed to a transport belongs to an opening that gets the lock for it. -/
theorem Locking.of_send {move : Move} (h : m.Locking move) {c : ContextId}
    {transport : TransportId} {order : ClientOrder}
    (hevent : (m.step move).2 = some (.contact id (.send c transport order))) :
    ∃ o left, o.context = c ∧ m.activity? id = some (.opening o (order :: left)) ∧
      m.holds o.session.id = false ∧ (m.step move).1.lockOf? id = some o.session.id ∧
      (m.step move).1.registry = m.registry := by
  cases h with
  | idle hstep =>
    rw [hstep] at hevent
    cases hevent
  | @frees other stretch hstep hfree =>
    rw [hstep, event_enter] at hevent
    -- A stretch that takes no lock hands nothing to a transport.
    have hattempt := hfree.attempt?_eq other
    rw [hevent] at hattempt
    cases hattempt
  | @sends other o order' left _ hactivity hholds hstep =>
    rw [hstep] at hevent
    cases hevent
    rw [hstep]
    refine ⟨o, left, rfl, hactivity, hholds, ?_, rfl⟩
    rw [lockOf?_enter, if_pos rfl]
    rfl
  | locks _ _ _ hstep =>
    rw [hstep] at hevent
    cases hevent

/-- Until the reply comes, an activity that has a lock keeps it, and does nothing else. -/
theorem Locking.keeps {move : Move} (h : m.Locking move) {session : SessionId}
    (hlock : m.lockOf? id = some session) (hanswered : move.answered? ≠ some id) :
    (m.step move).1.lockOf? id = some session ∧
      ∀ event, (m.step move).2 = some event → event.activity ≠ id := by
  -- The stretch belongs to another activity, for this one has a lock and does not go on.
  have hother : ∀ {other : ActivityId} {stretch : Stretch}, other ≠ id →
      m.step move = (m.numbered move).enter other stretch →
      (m.step move).1.lockOf? id = some session ∧
        ∀ event, (m.step move).2 = some event → event.activity ≠ id := by
    intro other stretch hne hstep
    rw [hstep, lockOf?_enter, if_neg (Ne.symm hne), lockOf?_numbered, event_enter]
    refine ⟨hlock, fun event hevent => ?_⟩
    rwa [Progress.activity_of_event? hevent]
  have hnone : ∀ {other : ActivityId} {activity : Activity}, m.activity? other = some activity →
      activity.lock? = none → other ≠ id := by
    rintro other activity hactivity hfree rfl
    unfold lockOf? at hlock
    rw [hactivity] at hlock
    rw [show activity.lock? = some session from hlock] at hfree
    cases hfree
  cases h with
  | idle hstep =>
    rw [hstep]
    exact ⟨hlock, fun event hevent => by cases hevent⟩
  | @frees other stretch hstep _ _ hbefore =>
    refine hother (fun hid => ?_) hstep
    subst hid
    rw [hlock] at hbefore
    exact hbefore.elim (fun h => by cases h) hanswered
  | sends hmove hactivity _ hstep =>
    subst hmove
    exact hother (hnone hactivity rfl) hstep
  | locks hmove hactivity _ hstep =>
    subst hmove
    exact hother (hnone hactivity rfl) hstep

/-- The reply takes the lock back, and no record is handed over at once. -/
theorem Locking.gives {move : Move} (h : m.Locking move) (hanswered : move.answered? = some id) :
    (m.step move).1.lockOf? id = none ∧ (m.step move).2.bind Event.attempt? = none := by
  cases h with
  | idle hstep hfree =>
    rw [hstep]
    exact ⟨hfree id hanswered, rfl⟩
  | @frees other stretch hstep hfree honly _ =>
    obtain rfl := honly id hanswered
    rw [hstep, lockOf?_enter, if_pos rfl, event_enter]
    exact ⟨hfree.lock?_eq, hfree.attempt?_eq id⟩
  | sends hmove _ _ _ | locks hmove _ _ _ =>
    subst hmove
    cases hanswered

/-- So does a run. -/
theorem IsKeyed.run (h : m.IsKeyed) (moves : List Move) : (m.run moves).1.IsKeyed :=
  run_induction h fun _ hm move _ => IsKeyed.step hm move

/-- An activity that has a lock keeps it until it is answered, and shows nothing meanwhile. -/
theorem IsKeyed.keeps_run (h : m.IsKeyed) {session : SessionId}
    (hlock : m.lockOf? id = some session) (moves : List Move)
    (hanswered : ∀ move ∈ moves, move.answered? ≠ some id) :
    (m.run moves).1.lockOf? id = some session ∧
      ∀ event ∈ (m.run moves).2, event.activity ≠ id := by
  induction moves generalizing m with
  | nil => exact ⟨hlock, fun event hevent => by cases hevent⟩
  | cons move moves ih =>
    obtain ⟨hnext, hevent⟩ :=
      (h.locking move).keeps hlock (hanswered move List.mem_cons_self)
    obtain ⟨hlast, hevents⟩ := ih (h.step move) hnext
      fun other hother => hanswered other (List.mem_cons_of_mem _ hother)
    refine ⟨hlast, fun event hmem => ?_⟩
    obtain hmem | hmem := List.mem_append.mp hmem
    · exact hevent event (Option.mem_toList.mp hmem)
    · exact hevents event hmem

end Machine

end RemotePrograms
