import RemotePrograms.Proofs.Channel.Openings

/-!
# `RemotePrograms.Proofs.Channel.Journal`: the records that were handed to transports

A `Journal` is a machine with the list of all attempts to send a record, in the order in which
they were made, each with the reply of the transport once there is one. It adds nothing to what
the machine does (`machine_run`): it reads the attempts off the events, and the replies off the
moves.

While an opening is under way, the last attempts on its context are its own, and how many there
are says how far it has come: that is `Activity.Follows`. `on_step_passes` and `advances` say
how the attempts on one context change with a move.
-/

set_option autoImplicit false

namespace RemotePrograms

/-- A record that was handed to a transport. -/
structure Attempt where
  activity : ActivityId
  context : ContextId
  transport : TransportId
  order : ClientOrder
  /-- What the transport replied, if it did. -/
  reply : Option (Except Error Unit) := none

/-- The attempt that an event shows. -/
def Event.attempt? : Event → Option Attempt
  | .contact id (.send context transport order) =>
    some { activity := id, context, transport, order }
  | _ => none

/-- An attempt after a move. The reply to its activity is its own, if it has none yet. -/
def Attempt.note (attempt : Attempt) : Move → Attempt
  | .answer id reply =>
    if attempt.activity = id ∧ attempt.reply.isNone then { attempt with reply := some reply }
    else attempt
  | _ => attempt

/-- A machine with the attempts that were made on it. -/
structure Journal where
  machine : Machine
  sends : List Attempt := []

namespace Journal

/-- A journal in which nothing is entered yet. -/
def new (machine : Machine) : Journal := { machine }

/-- The journal after a move. -/
def step (j : Journal) (move : Move) : Journal where
  machine := (j.machine.step move).1
  sends := j.sends.map (·.note move)
    ++ (j.machine.step move).2.toList.filterMap Event.attempt?

/-- The journal after a run. -/
def run (j : Journal) (moves : List Move) : Journal :=
  moves.foldl step j

/-- The attempts on one context. -/
def on (j : Journal) (c : ContextId) : List Attempt :=
  j.sends.filter (·.context = c)

/-- What every move of a run keeps, the run keeps. -/
theorem run_induction {P : Journal → Prop} {j : Journal} {moves : List Move} (h : P j)
    (hstep : ∀ j, P j → ∀ move ∈ moves, P (j.step move)) : P (j.run moves) :=
  List.foldlRecOn moves step h hstep

/-- Keeping a journal does not change the run. -/
theorem machine_run (j : Journal) (moves : List Move) :
    (j.run moves).machine = (j.machine.run moves).1 := by
  induction moves generalizing j with
  | nil => rfl
  | cons move moves ih => exact ih (j.step move)

/-- A run goes on where its first part stopped. -/
theorem run_append (j : Journal) (moves later : List Move) :
    j.run (moves ++ later) = (j.run moves).run later :=
  List.foldl_append

end Journal

namespace Attempt

/-- A move leaves an attempt as it is or adds a reply to it, and nothing else. -/
theorem note_cases (attempt : Attempt) (move : Move) :
    attempt.note move = attempt ∨
      ∃ reply, attempt.note move = { attempt with reply := some reply } := by
  cases move with
  | answer id reply =>
    unfold note
    dsimp only
    split
    · exact .inr ⟨reply, rfl⟩
    · exact .inl rfl
  | _ => exact .inl rfl

/-- A reply does not change which context an attempt is for. -/
@[simp] theorem context_note (attempt : Attempt) (move : Move) :
    (attempt.note move).context = attempt.context := by
  obtain hsame | ⟨reply, hreplied⟩ := attempt.note_cases move
  · rw [hsame]
  · rw [hreplied]

/-- A reply does not change which activity an attempt comes from. -/
@[simp] theorem activity_note (attempt : Attempt) (move : Move) :
    (attempt.note move).activity = attempt.activity := by
  obtain hsame | ⟨reply, hreplied⟩ := attempt.note_cases move
  · rw [hsame]
  · rw [hreplied]

/-- An attempt that has its reply stays as it is. -/
theorem note_of_replied {attempt : Attempt} (h : attempt.reply.isSome) (move : Move) :
    attempt.note move = attempt := by
  cases move with
  | answer id reply =>
    have hsome : attempt.reply.isNone = false := by simpa using h
    simp [note, hsome]
  | _ => rfl

/-- An attempt is settled by nothing but a reply to its own activity. -/
theorem note_of_ne {attempt : Attempt} {move : Move}
    (h : ∀ reply, move ≠ .answer attempt.activity reply) : attempt.note move = attempt := by
  cases move with
  | answer id reply =>
    refine if_neg ?_
    rintro ⟨hid, -⟩
    exact h reply (by rw [hid])
  | _ => rfl

/-- The attempt as it was made. -/
def made (attempt : Attempt) : Attempt := { attempt with reply := none }

/-- Attempts that have their replies stay as they are. -/
theorem map_note_of_replied {attempts : List Attempt}
    (h : ∀ attempt ∈ attempts, attempt.reply.isSome) (move : Move) :
    attempts.map (·.note move) = attempts := by
  have hsame : ∀ attempt ∈ attempts, attempt.note move = id attempt :=
    fun attempt hattempt => note_of_replied (h attempt hattempt) move
  rw [List.map_congr_left hsame, List.map_id]

end Attempt

/-- An attempt that belongs to an opening. -/
def Opening.attempt (o : Opening) (id : ActivityId) (reply : Option (Except Error Unit))
    (order : ClientOrder) : Attempt where
  activity := id
  context := o.context
  transport := o.transport
  order := order
  reply := reply

/-- The attempts of an opening that sent these records. -/
def Opening.sent (o : Opening) (id : ActivityId) (orders : List ClientOrder) : List Attempt :=
  orders.map (o.attempt id (some (.ok ())))

/-- The attempts for some records are those for the first ones followed by those for the rest. -/
theorem Opening.sent_append (o : Opening) (id : ActivityId) (orders later : List ClientOrder) :
    o.sent id (orders ++ later) = o.sent id orders ++ o.sent id later :=
  List.map_append

/-- Each of the attempts that were sent has a good reply. -/
theorem Opening.reply_of_mem_sent {o : Opening} {id : ActivityId} {orders : List ClientOrder}
    {attempt : Attempt} (h : attempt ∈ o.sent id orders) : attempt.reply = some (.ok ()) := by
  obtain ⟨order, -, rfl⟩ := List.mem_map.mp h
  rfl

/-- The attempts that an opening has made by the time it has come this far: all of them were
successful, except one that is still without a reply. -/
inductive Activity.Follows (id : ActivityId) (o : Opening) : Activity → List Attempt → Prop where
  | between {sent left : List ClientOrder} :
      o.session.settings.opening = sent ++ left →
      Follows id o (.opening o left) (o.sent id sent)
  | trying {order : ClientOrder} {sent left : List ClientOrder} :
      o.session.settings.opening = sent ++ order :: left →
      Follows id o (.sending o order left) (o.sent id sent ++ [o.attempt id none order])

/-- Only an attempt of the opening itself can be without a reply, and then a record is with the
transport. -/
theorem Activity.Follows.of_reply_none {id : ActivityId} {o : Opening} {activity : Activity}
    {attempts : List Attempt} (h : activity.Follows id o attempts) {attempt : Attempt}
    (hmem : attempt ∈ attempts) (hnone : attempt.reply = none) :
    attempt.activity = id ∧ activity.isOutside = true := by
  cases h with
  | between hsent =>
    rw [Opening.reply_of_mem_sent hmem] at hnone
    cases hnone
  | trying hsent =>
    obtain hmem | hmem := List.mem_append.mp hmem
    · rw [Opening.reply_of_mem_sent hmem] at hnone
      cases hnone
    · rw [List.mem_singleton.mp hmem]
      exact ⟨rfl, rfl⟩

namespace Journal

variable {j : Journal} {move : Move} {c : ContextId}

/-- The attempts on a context after a move: those before, with the reply, and a new one. -/
theorem on_step (j : Journal) (move : Move) (c : ContextId) :
    (j.step move).on c
      = (j.on c).map (·.note move)
        ++ ((j.machine.step move).2.toList.filterMap Event.attempt?).filter (·.context = c) := by
  show List.filter _ (_ ++ _) = _
  rw [List.filter_append, List.filter_map]
  congr 3
  funext attempt
  simp

/-- A move that passes a context leaves the attempts on it alone, provided that those without a
reply belong to an opening that waits for one. -/
theorem on_step_passes (hpasses : j.machine.Passes c move (j.machine.step move))
    (hopen : ∀ attempt ∈ j.on c, attempt.reply = none →
      ∃ activity o, o.context = c ∧ j.machine.Opens attempt.activity activity o ∧
        activity.isOutside = true) : (j.step move).on c = j.on c := by
  -- No new attempt: only a send makes one, and it would go out for another context.
  have hnew : ((j.machine.step move).2.toList.filterMap Event.attempt?).filter (·.context = c)
      = [] := by
    match hevent : (j.machine.step move).2 with
    | some (.contact id (.send context transport order)) =>
      have hne : context ≠ c := by
        rintro rfl
        exact hpasses.not_send id transport order hevent
      simp [Event.attempt?, hne]
    | some (.contact id (.callback context handler order)) => rfl
    | some (.contact id (.abort session reason message)) => rfl
    | some (.contact id (.notify context subscriber)) => rfl
    | some (.contact id (.locked session)) => rfl
    | some (.returned id result) => rfl
    | none => rfl
  -- And no reply to an old one: an opening on the context waits for it, and it would be touched.
  have hold : ∀ attempt ∈ j.on c, attempt.note move = id attempt := by
    intro attempt hattempt
    by_cases hreply : attempt.reply = none
    · obtain ⟨activity, o, hc, ho, hout⟩ := hopen attempt hattempt hreply
      exact Attempt.note_of_ne fun reply => hpasses.not_answered _ reply activity o hc ho hout
    · exact Attempt.note_of_replied (Option.isSome_iff_ne_none.mpr hreply) move
  rw [on_step, hnew, List.append_nil, List.map_congr_left hold, List.map_id]

/-- An opening begins without an attempt. -/
theorem begins {operation : Operation}
    (hbegins : j.machine.registry.Begins c (operation.start j.machine.registry))
    {context : Context} (hcontext : j.machine.registry.context? c = some context)
    {session : Session} (hsession : context.session = some session) :
    (j.step (.call operation)).machine.Opens j.machine.nextActivity
        (.opening ⟨c, context.transport, session, true⟩ session.settings.opening)
        ⟨c, context.transport, session, true⟩ ∧
      (j.step (.call operation)).machine.registry.context? c
        = some { context with phase := .handshakeInFlight } ∧
      (j.step (.call operation)).sends = j.sends ∧
      (j.machine.step (.call operation)).2 = none := by
  obtain ⟨context', session', hcontext', -, -, hsession', hstart⟩ := hbegins
  rw [hcontext] at hcontext'
  cases hcontext'
  rw [hsession] at hsession'
  cases hsession'
  have hstep := Machine.step_call j.machine operation
  rw [hstart] at hstep
  -- No reply comes with a call, so what was noted stays as it is.
  have hsame : ∀ attempt ∈ j.sends, attempt.note (.call operation) = id attempt := fun _ _ => rfl
  refine ⟨?_, ?_, ?_, ?_⟩
  · show (j.machine.step (.call operation)).1.Opens _ _ _
    rw [hstep, Machine.opens_enter_self]
    exact ⟨rfl, rfl⟩
  · show (j.machine.step (.call operation)).1.registry.context? c = _
    rw [hstep, Machine.registry_enter]
    exact Registry.context?_setPhase_self hcontext _
  · show j.sends.map _ ++ _ = _
    rw [hstep, List.map_congr_left hsame, List.map_id]
    exact List.append_nil _
  · rw [hstep]
    rfl

/-- What a move makes of an opening, if it touches the context of the opening: the attempts on the
context were those in `past` and those of the opening. -/
inductive Advances (past : List Attempt) (id : ActivityId) (o : Opening) (activity : Activity)
    (context : Context) (next : Journal) (event : Option Event) : Prop where
  /-- The opening goes on. -/
  | goes (activity' : Activity) (attempts : List Attempt) :
      next.machine.Opens id activity' o → activity'.Follows id o attempts →
      activity'.stretches < activity.stretches → next.on o.context = past ++ attempts →
      next.machine.registry.context? o.context = some context →
      (∀ result, event ≠ some (.returned id result)) →
      Advances past id o activity context next event
  /-- A record is not sent, and the context has failed. -/
  | fails {sent left : List ClientOrder} {order : ClientOrder} {cause : Error} :
      o.session.settings.opening = sent ++ order :: left →
      next.on o.context
        = past ++ (o.sent id sent ++ [o.attempt id (some (.error cause)) order]) →
      (∀ other activity o', o'.context = o.context → ¬ next.machine.Opens other activity o') →
      next.machine.registry.context? o.context = some { context with phase := .failed } →
      event = some (.returned id (.error cause)) →
      Advances past id o activity context next event
  /-- All records are sent, and the context runs. -/
  | completes :
      next.on o.context = past ++ o.sent id o.session.settings.opening →
      (∀ other activity o', o'.context = o.context → ¬ next.machine.Opens other activity o') →
      context.phase = .handshakeInFlight →
      next.machine.registry.context? o.context = some { context with phase := .running } →
      event = some (.returned id (.ok .done)) →
      Advances past id o activity context next event
  /-- All records are sent, but the context has ended meanwhile. -/
  | overtaken :
      next.on o.context = past ++ o.sent id o.session.settings.opening →
      (∀ other activity o', o'.context = o.context → ¬ next.machine.Opens other activity o') →
      context.phase.isTerminated →
      next.machine.registry.context? o.context = some context →
      event = some (.returned id
        (.error (.notAllowed "cannot complete handshake: no handshake in flight"))) →
      Advances past id o activity context next event

/-- When an operation is finished, no opening is left of it. -/
private theorem not_opens_returned {m : Machine} (h : m.Consistent) {id : ActivityId}
    {activity : Activity} {o : Opening} (ho : m.Opens id activity o) (r : Registry)
    (result : Result) (other : ActivityId) (activity' : Activity) (o' : Opening)
    (hc : o'.context = o.context) :
    ¬ (m.enter id (r, .returned result)).1.Opens other activity' o' := by
  intro ho'
  by_cases hother : other = id
  · subst hother
    rw [Machine.opens_enter_self] at ho'
    cases ho'.1
  · rw [Machine.opens_enter_ne _ _ hother] at ho'
    exact h.context_ne ho ho' hother hc

/-- What a move makes of an opening whose context it touches. -/
theorem advances (h : j.machine.Consistent) {id : ActivityId} {activity : Activity} {o : Opening}
    {context : Context} {past attempts : List Attempt}
    (hcontext : j.machine.registry.context? o.context = some context)
    (ho : j.machine.Opens id activity o) (hfollows : activity.Follows id o attempts)
    (hon : j.on o.context = past ++ attempts) (hpast : ∀ attempt ∈ past, attempt.reply.isSome)
    (htouches : j.machine.Touches o.context move (j.machine.step move)) :
    Advances past id o activity context (j.step move) (j.machine.step move).2 := by
  obtain ⟨⟨context', hcontext', hfits⟩, -⟩ := h.fits id activity o ho
  rw [hcontext] at hcontext'
  cases hcontext'
  have hstep := on_step j move o.context
  have hmachine : (j.step move).machine = (j.machine.step move).1 := rfl
  -- The replies of the earlier attempts are final, so only the last attempt can change.
  have hsame : ∀ sent, (o.sent id sent).map (·.note move) = o.sent id sent := fun sent =>
    Attempt.map_note_of_replied (fun _ hmem => by rw [Opening.reply_of_mem_sent hmem]; rfl) move
  rw [hon, List.map_append, Attempt.map_note_of_replied hpast] at hstep
  generalize j.step move = next at hstep hmachine ⊢
  generalize j.machine.step move = result at *
  cases htouches with
  | begins hbegins hending =>
    -- A handshake begins no second opening on the context.
    obtain ⟨context', session, hcontext', harmed, hphase, -⟩ := hbegins
    exact absurd rfl (h.not_opens hcontext' hphase id activity o ho)
  | @tries id' o' order left hc hactivity hlock =>
    obtain rfl := h.single _ _ _ _ _ _ ho ⟨hactivity, rfl⟩ hc.symm
    rw [Machine.Opens, hactivity] at ho
    cases ho.1
    cases ho.2
    cases hfollows with
    | @between sent _ hsent =>
      refine .goes (.sending o order left) (o.sent id sent ++ [o.attempt id none order]) ?_
        (.trying hsent) ?_ ?_ ?_ ?_
      · rw [hmachine, Machine.opens_enter_self]
        exact ⟨rfl, rfl⟩
      · show 2 * left.length + 2 < 2 * (left.length + 1) + 1
        omega
      · rw [hstep, hsame]
        simp [Machine.event_enter, Progress.event?, Event.attempt?, Opening.attempt]
      · rw [hmachine, Machine.registry_enter]
        exact hcontext
      · simp [Machine.event_enter, Progress.event?]
  | @sent id' o' order left hc hactivity =>
    obtain rfl := h.single _ _ _ _ _ _ ho ⟨hactivity, rfl⟩ hc.symm
    rw [Machine.Opens, hactivity] at ho
    cases ho.1
    cases ho.2
    cases hfollows with
    | @trying _ sent _ hsent =>
      -- The reply makes the last attempt one of those that succeeded.
      refine .goes (.opening o left) (o.sent id (sent ++ [order])) ?_ (.between ?_) ?_ ?_ ?_ ?_
      · rw [hmachine, Machine.opens_enter_self]
        exact ⟨rfl, rfl⟩
      · rw [hsent, List.append_assoc]
        rfl
      · show 2 * left.length + 1 < 2 * left.length + 2
        omega
      · rw [hstep, List.map_append, hsame, Opening.sent_append]
        simp [Machine.event_enter, Progress.event?, Attempt.note, Opening.attempt, Opening.sent]
      · rw [hmachine, Machine.registry_enter]
        exact hcontext
      · simp [Machine.event_enter, Progress.event?]
  | @fails id' o' order left cause hc hactivity =>
    obtain rfl := h.single _ _ _ _ _ _ ho ⟨hactivity, rfl⟩ hc.symm
    have hnone := not_opens_returned h ho
    rw [Machine.Opens, hactivity] at ho
    cases ho.1
    cases ho.2
    rw [Registry.failOpening, hfits.guarded_eq, if_pos rfl] at hstep hmachine ⊢
    cases hfollows with
    | @trying _ sent _ hsent =>
      refine .fails hsent ?_ ?_ ?_ rfl
      · rw [hstep, List.map_append, hsame]
        simp [Registry.refuse, Progress.event?, Event.attempt?, Attempt.note, Opening.attempt]
      · rw [hmachine]
        exact hnone _ _
      · rw [hmachine, Machine.registry_enter]
        exact Registry.context?_setPhase_self hcontext _
  | @completes id' o' hc hactivity =>
    obtain rfl := h.single _ _ _ _ _ _ ho ⟨hactivity, rfl⟩ hc.symm
    have hnone := not_opens_returned h ho
    rw [Machine.Opens, hactivity] at ho
    cases ho.1
    cases ho.2
    cases hfollows with
    | @between sent _ hsent =>
      -- Nothing is left, so everything was sent. The phase decides what the handshake returns.
      obtain rfl : o.session.settings.opening = sent := by rw [hsent, List.append_nil]
      obtain ⟨hphase, hcomplete⟩ | ⟨hphase, hcomplete⟩ :=
        Registry.completeOpening_cases hcontext hfits
      · rw [hcomplete] at hstep hmachine ⊢
        refine .completes ?_ ?_ hphase ?_ rfl
        · rw [hstep, hsame]
          exact List.append_nil _
        · rw [hmachine]
          exact hnone _ _
        · rw [hmachine, Machine.registry_enter]
          exact Registry.context?_setPhase_self hcontext _
      · rw [hcomplete] at hstep hmachine ⊢
        refine .overtaken ?_ ?_ hphase ?_ rfl
        · rw [hstep, hsame]
          exact List.append_nil _
        · rw [hmachine]
          exact hnone _ _
        · rw [hmachine, Machine.registry_enter]
          exact hcontext

end Journal

end RemotePrograms
