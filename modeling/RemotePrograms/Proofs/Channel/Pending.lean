import RemotePrograms.Proofs.Channel.Arming
import RemotePrograms.Proofs.Channel.Locks

/-!
# `RemotePrograms.Proofs.Channel.Pending`: records that are on their way

A record is on its way from the move that hands it to a transport until the reply comes.
`Journal.pending` lists those of one activity. `Journal.IsLocked` ties them to the locks: what is
pending is what the activity is trying to send, and whoever tries to send has a lock that nobody
else has.

The lock is that of the session that the opening works for. This is the session of its context for
as long as nobody attaches another one (`leavesSessions`), which is so in every run that leaves it
to arming to attach sessions (`IsAttached.leavesSessions`). Then a record is sent under the lock of
the session that its context belongs to, one record at a time, and `lock_discipline` says so.
-/

set_option autoImplicit false

namespace RemotePrograms

/-- The record that an activity waits for the transport to send. -/
def Activity.trying (id : ActivityId) : Activity → List Attempt
  | sending o order _ => [o.attempt id none order]
  | _ => []

/-- Whoever has no lock is not trying to send anything. -/
theorem Activity.trying_of_lock?_none (id : ActivityId) {activity : Activity}
    (h : activity.lock? = none) : activity.trying id = [] := by
  cases activity with
  | sending => cases h
  | _ => rfl

namespace Journal

variable {j : Journal}

/-- The attempts of an activity that have no reply yet. -/
def pending (j : Journal) (id : ActivityId) : List Attempt :=
  j.sends.filter fun attempt => attempt.activity = id ∧ attempt.reply.isNone

/-- A reply settles what was pending, and a new attempt is pending. -/
theorem pending_step (j : Journal) (move : Move) (id : ActivityId) :
    (j.step move).pending id
      = (if move.answered? = some id then [] else j.pending id)
        ++ ((j.machine.step move).2.toList.filterMap Event.attempt?).filter
          (fun attempt => attempt.activity = id ∧ attempt.reply.isNone) := by
  have hold : (j.sends.map (·.note move)).filter
        (fun attempt => attempt.activity = id ∧ attempt.reply.isNone)
      = if move.answered? = some id then [] else j.pending id := by
    rw [List.filter_map]
    split
    · rename_i hanswered
      cases move with
      | answer other reply =>
        cases hanswered
        -- The attempt that waited has its reply now, and the others had theirs before.
        refine List.map_eq_nil_iff.mpr (List.filter_eq_nil_iff.mpr fun attempt _ hpending => ?_)
        simp only [Function.comp_apply, Attempt.activity_note, decide_eq_true_eq] at hpending
        obtain ⟨hactivity, hreply⟩ := hpending
        cases hnone : attempt.reply with
        | none => simp [Attempt.note, hactivity, hnone] at hreply
        | some reply' => simp [Attempt.note, hnone] at hreply
      | _ => cases hanswered
    · rename_i hanswered
      -- A reply to somebody else settles nothing here.
      have hsame : ∀ attempt : Attempt, attempt.activity = id → attempt.note move = attempt := by
        intro attempt hactivity
        refine Attempt.note_of_ne fun reply hmove => hanswered ?_
        rw [hmove, hactivity]
        rfl
      have hfilter : j.sends.filter ((fun attempt : Attempt =>
            decide (attempt.activity = id ∧ attempt.reply.isNone = true)) ∘ (·.note move))
          = j.pending id := by
        refine List.filter_congr fun attempt _ => ?_
        by_cases hactivity : attempt.activity = id
        · rw [Function.comp_apply, hsame attempt hactivity]
        · simp [hactivity]
      rw [hfilter]
      refine (List.map_congr_left fun attempt hattempt => ?_).trans (List.map_id _)
      exact hsame attempt (of_decide_eq_true (List.mem_filter.mp hattempt).2).1
  unfold pending
  show List.filter _ (_ ++ _) = _
  rw [List.filter_append, hold]
  rfl

/-- Who has which lock, and what is pending. -/
structure IsLocked (j : Journal) : Prop where
  keyed : j.machine.IsKeyed
  single : ∀ id id' session, j.machine.lockOf? id = some session →
    j.machine.lockOf? id' = some session → id = id'
  pending : ∀ id, j.pending id = (j.machine.activity? id).elim [] (Activity.trying id)

/-- On a new connection nobody has a lock and nothing is pending. -/
theorem isLocked_ofRegistry (registry : Registry) : (new (.ofRegistry registry)).IsLocked where
  keyed := Machine.isKeyed_ofRegistry registry
  single _ _ _ h := by cases h
  pending _ := rfl

/-- What is pending after a move is what the activities are trying then. -/
theorem IsLocked.pending_step (h : j.IsLocked) (move : Move) (id : ActivityId) :
    (j.step move).pending id
      = ((j.step move).machine.activity? id).elim [] (Activity.trying id) := by
  have hfree : ∀ activity : Option Activity, activity.bind Activity.lock? = none →
      activity.elim [] (Activity.trying id) = [] := by
    intro activity hlock
    cases activity with
    | none => rfl
    | some activity => exact Activity.trying_of_lock?_none id hlock
  rw [Journal.pending_step]
  show _ = (((j.machine.step move).1).activity? id).elim [] (Activity.trying id)
  cases h.keyed.locking move with
  | idle hstep hanswered =>
    rw [hstep]
    refine (List.append_nil _).trans ?_
    split
    · rename_i hid
      exact (hfree _ (hanswered id hid)).symm
    · exact h.pending id
  | @frees other stretch hstep hstretch honly hbefore =>
    -- Neither a record nor a lock comes of this stretch.
    have hnew : (j.machine.step move).2.toList.filterMap Event.attempt? = [] := by
      rw [hstep, Machine.event_enter]
      have hattempt := hstretch.attempt?_eq other
      cases hevent : stretch.2.event? other with
      | none => rfl
      | some event =>
        rw [hevent] at hattempt
        simpa using hattempt
    rw [hnew, hstep]
    refine (List.append_nil _).trans ?_
    by_cases hid : id = other
    · subst hid
      rw [Machine.activity?_enter_self, hfree _ hstretch.lock?_eq]
      split
      · rfl
      · rename_i hanswered
        rw [h.pending]
        exact hfree _ (hbefore.resolve_right hanswered)
    · rw [Machine.activity?_enter_ne _ _ hid, Machine.activity?_numbered, if_neg]
      · exact h.pending id
      · exact fun hanswered => hid (honly id hanswered)
  | @sends other o order left hmove hactivity hholds hstep =>
    rw [hmove] at hstep ⊢
    rw [hstep, if_neg (by simp [Move.answered?]), h.pending]
    by_cases hid : id = other
    · subst hid
      rw [Machine.activity?_enter_self, hactivity]
      simp [Machine.event_enter, Progress.event?, Progress.activity?, Event.attempt?,
        Activity.trying, Opening.attempt]
    · rw [Machine.activity?_enter_ne _ _ hid]
      simp [Machine.event_enter, Progress.event?, Event.attempt?, Ne.symm hid]
  | @locks other session hmove hactivity hholds hstep =>
    rw [hmove] at hstep ⊢
    rw [hstep, if_neg (by simp [Move.answered?]), h.pending]
    by_cases hid : id = other
    · subst hid
      rw [Machine.activity?_enter_self, hactivity]
      rfl
    · rw [Machine.activity?_enter_ne _ _ hid]
      exact List.append_nil _

/-- A move keeps locks and pending records in step. A lock that somebody gets by it was free, so
nobody else has it. -/
theorem IsLocked.step (h : j.IsLocked) (move : Move) : (j.step move).IsLocked := by
  refine ⟨h.keyed.step move, fun id id' session hlock hlock' => ?_, h.pending_step move⟩
  have hlocking := h.keyed.locking move
  have hbusy : ∀ other, j.machine.lockOf? other = some session →
      j.machine.holds session ≠ false := by
    intro other hother hfree
    rw [(h.keyed.holds_iff session).mpr ⟨other, hother⟩] at hfree
    cases hfree
  -- A lock that is new was free, and only one activity gets a lock at a time.
  by_cases hbefore : j.machine.lockOf? id = some session
  · by_cases hbefore' : j.machine.lockOf? id' = some session
    · exact h.single id id' session hbefore hbefore'
    · exact absurd (hlocking.acquires hbefore' hlock').1 (hbusy id hbefore)
  · obtain ⟨hfree, contact, hevent, -⟩ := hlocking.acquires hbefore hlock
    by_cases hbefore' : j.machine.lockOf? id' = some session
    · exact absurd hfree (hbusy id' hbefore')
    · obtain ⟨-, contact', hevent', -⟩ := hlocking.acquires hbefore' hlock'
      rw [hevent] at hevent'
      cases hevent'
      rfl

/-- So does a run. -/
theorem IsLocked.run (h : j.IsLocked) (moves : List Move) : (j.run moves).IsLocked :=
  run_induction h fun _ hj move _ => IsLocked.step hj move

/-- A record without a reply is one that its activity is trying. -/
theorem IsLocked.sending_of_reply_none (h : j.IsLocked) {attempt : Attempt}
    (hmem : attempt ∈ j.sends) (hnone : attempt.reply = none) :
    ∃ o order left, j.machine.activity? attempt.activity = some (.sending o order left) ∧
      attempt = o.attempt attempt.activity none order := by
  have hpending : attempt ∈ j.pending attempt.activity :=
    List.mem_filter.mpr ⟨hmem, by simp [hnone]⟩
  rw [h.pending] at hpending
  cases hactivity : j.machine.activity? attempt.activity with
  | none =>
    rw [hactivity] at hpending
    cases hpending
  | some activity =>
    rw [hactivity] at hpending
    cases activity with
    | sending o order left => exact ⟨o, order, left, rfl, List.mem_singleton.mp hpending⟩
    | _ => cases hpending

end Journal

/-! ### Whose session it is -/

namespace Machine

variable {m : Machine}

/-- Whether a run leaves the contexts their sessions while openings are under way on them. Attaching
a session takes a context for oneself, and an opening holds on to it, so nobody can do otherwise. -/
def leavesSessions (m : Machine) : List Move → Bool
  | [] => true
  | move :: moves =>
    (m.activities.all fun entry => entry.2.opening?.all fun o =>
      (m.step move).1.session? o.context == m.session? o.context)
    && (m.step move).1.leavesSessions moves

/-- Every opening works for the session of its context. -/
def IsAttached (m : Machine) : Prop :=
  ∀ id activity o, m.Opens id activity o → m.session? o.context = some o.session

/-- A move that leaves the contexts of openings their sessions keeps every opening with the session
of its context. A new opening starts with that session, and a later stretch of an opening belongs to
the same one. -/
theorem IsAttached.step (h : m.IsAttached) {move : Move}
    (hleaves : ∀ id activity o, m.Opens id activity o →
      (m.step move).1.session? o.context = m.session? o.context) :
    (m.step move).1.IsAttached := by
  intro id activity o hopens
  have hbefore : m.Opens id activity o → (m.step move).1.session? o.context = some o.session :=
    fun hbefore => (hleaves id activity o hbefore).trans (h id activity o hbefore)
  cases hmove : move.activity? with
  | none =>
    cases move with
    | call operation =>
      rw [step_call] at hopens
      by_cases hid : id = m.nextActivity
      · subst hid
        obtain ⟨hactivity, hopening⟩ := (opens_enter_self _ _ _ activity o).mp hopens
        -- A new opening has just read the session off its context.
        have hfirst := operation.isFirst_start m.registry
        unfold session?
        rw [step_call, registry_enter]
        generalize operation.start m.registry = stretch at hactivity hfirst
        cases hfirst with
        | opens left hsession =>
          cases hactivity
          cases hopening
          exact hsession
        | other _ hnone =>
          rw [hactivity] at hnone
          rw [show activity.opening? = none from hnone] at hopening
          cases hopening
      · rw [opens_enter_ne _ _ hid, opens_numbered] at hopens
        exact hbefore hopens
    | resume other | answer other reply => cases hmove
  | some other =>
    obtain ⟨before, stretch, hother, hcontinues, hstep⟩ | hstep := m.carries_cases hmove
    · rw [hstep, numbered_of_activity? m hmove] at hopens
      by_cases hid : id = other
      · -- A stretch of an opening that was under way belongs to the same opening.
        subst hid
        obtain ⟨hactivity, hopening⟩ := (opens_enter_self m id stretch activity o).mp hopens
        rw [Activity.opening?_of_continues hcontinues hactivity] at hopening
        have hold : m.Opens id before o := ⟨hother, hopening⟩
        exact (hleaves id before o hold).trans (h id before o hold)
      · exact hbefore ((opens_enter_ne m stretch hid activity o).mp hopens)
    · rw [hstep] at hopens
      exact hbefore hopens

/-- So does a run of such moves. -/
theorem IsAttached.run (h : m.IsAttached) {moves : List Move}
    (hleaves : m.leavesSessions moves = true) : (m.run moves).1.IsAttached := by
  induction moves generalizing m with
  | nil => exact h
  | cons move moves ih =>
    obtain ⟨hmove, hmoves⟩ := Bool.and_eq_true_iff.mp hleaves
    refine ih (h.step fun id activity o hopens => ?_) hmoves
    obtain ⟨before, later, hentries, -⟩ := List.lookup_eq_some_iff.mp hopens.1
    have hentry := List.all_eq_true.mp hmove (id, activity) (by rw [hentries]; simp)
    rw [hopens.2] at hentry
    exact beq_iff_eq.mp hentry

/-- Where sessions are attached by arming only, every opening keeps the session of its context. -/
theorem IsAttached.leavesSessions (h : m.IsAttached) (hkeyed : m.IsKeyed) (hcoupled : m.IsCoupled)
    {moves : List Move} (hleaves : ∀ move ∈ moves, move.leavesArming = true) :
    m.leavesSessions moves = true := by
  induction moves generalizing m with
  | nil => rfl
  | cons move moves ih =>
    have hmove := hleaves move List.mem_cons_self
    -- A context that has a session keeps it.
    have hkept : ∀ id activity o, m.Opens id activity o →
        (m.step move).1.session? o.context = m.session? o.context := by
      intro id activity o hopens
      have hsession := h id activity o hopens
      rw [hsession]
      exact session?_run hcoupled hsession [move] fun other hother =>
        List.mem_singleton.mp hother ▸ hmove
    refine Bool.and_eq_true_iff.mpr ⟨List.all_eq_true.mpr fun entry hentry => ?_,
      ih (h.step hkept) (hkeyed.step move) (isCoupled_step hcoupled hmove) fun other hother =>
        hleaves other (List.mem_cons_of_mem _ hother)⟩
    cases hopening : entry.2.opening? with
    | none => rfl
    | some o =>
      exact beq_iff_eq.mpr (hkept entry.1 entry.2 o ⟨lookup_of_mem hkeyed.nodup hentry, hopening⟩)

end Machine

/-! ### The property -/

/-- Who has which write lock, in every run, with any sessions and contexts, with calls from inside
sends, and with all that transports may reply.

No two activities have the lock of one session. A record is handed to a transport only by an opening
that gets a lock for it which was free, and that is the lock of the session that the context of the
record is attached to. A lock is never got in another way, except by somebody who asks for the lock
itself. Whoever got one has it until the reply, and does nothing meanwhile. The reply takes it back,
whether it is a success or a failure, and the next record needs the lock anew.

So an opening has the lock exactly while one of its records is without a reply, there is never more
than one such record, and a finished operation has neither. Two records that are on their way for
one session are the same record. -/
theorem lock_discipline (available : List String) (moves : List Move) :
    let start : Machine := .ofRegistry { available }
    let m := (start.run moves).1
    let j := (Journal.new start).run moves
    (∀ id id' session, m.lockOf? id = some session → m.lockOf? id' = some session → id = id') ∧
    (∀ move id c transport order,
      (m.step move).2 = some (.contact id (.send c transport order)) →
      ∃ session : Session, m.holds session.id = false ∧
        (m.step move).1.lockOf? id = some session.id ∧
        (start.leavesSessions moves = true → (m.step move).1.session? c = some session)) ∧
    (∀ move id session, m.lockOf? id ≠ some session →
      (m.step move).1.lockOf? id = some session →
      m.holds session = false ∧ ∃ contact, (m.step move).2 = some (.contact id contact) ∧
        (contact = .locked session ∨ ∃ c transport order, contact = .send c transport order)) ∧
    (∀ id session later, m.lockOf? id = some session →
      (∀ move ∈ later, move.answered? ≠ some id) →
      (m.run later).1.lockOf? id = some session ∧
        (∀ event ∈ (m.run later).2, event.activity ≠ id) ∧
        ∀ reply, ((m.run later).1.step (.answer id reply)).1.lockOf? id = none ∧
          ((m.run later).1.step (.answer id reply)).2.bind Event.attempt? = none) ∧
    (∀ id activity o, m.Opens id activity o →
      (m.lockOf? id = some o.session.id ∧ ∃ order, j.pending id = [o.attempt id none order]) ∨
        (m.lockOf? id = none ∧ j.pending id = [])) ∧
    (∀ id, m.activity? id = none → m.lockOf? id = none ∧ j.pending id = []) ∧
    (start.leavesSessions moves = true → ∀ first ∈ j.sends, ∀ second ∈ j.sends,
      first.reply = none → second.reply = none →
      ∀ session session', m.session? first.context = some session →
        m.session? second.context = some session' → session.id = session'.id →
        first = second) := by
  intro start m j
  have hlocked : j.IsLocked := (Journal.isLocked_ofRegistry { available }).run moves
  have hmachine : j.machine = m := Journal.machine_run _ moves
  have hkeyed : m.IsKeyed := hmachine ▸ hlocked.keyed
  have hsingle := hlocked.single
  have hpending := hlocked.pending
  rw [hmachine] at hsingle hpending
  have hattached : start.leavesSessions moves = true → m.IsAttached :=
    fun hleaves => Machine.IsAttached.run (fun _ _ _ hopens => by cases hopens.1) hleaves
  have hopening : ∀ id activity o, m.Opens id activity o →
      (m.lockOf? id = some o.session.id ∧ ∃ order, j.pending id = [o.attempt id none order]) ∨
        (m.lockOf? id = none ∧ j.pending id = []) := by
    intro id activity o ⟨hactivity, hopens⟩
    unfold Machine.lockOf?
    rw [hpending, hactivity]
    cases activity with
    | sending o' order left =>
      cases hopens
      exact .inl ⟨rfl, order, rfl⟩
    | opening o' left => exact .inr ⟨rfl, rfl⟩
    | _ => cases hopens
  refine ⟨hsingle, fun move id c transport order hevent => ?_,
    fun move id session hbefore hafter => (hkeyed.locking move).acquires hbefore hafter,
    fun id session later hlock hlater => ?_, hopening, fun id hnone => ?_,
    fun hleaves first hfirst second hsecond hnone hnone' session session' hc hc' heq => ?_⟩
  · obtain ⟨o, left, rfl, hactivity, hholds, hlock, hregistry⟩ :=
      (hkeyed.locking move).of_send hevent
    refine ⟨o.session, hholds, hlock, fun hleaves => ?_⟩
    unfold Machine.session?
    rw [hregistry]
    exact hattached hleaves id _ o ⟨hactivity, rfl⟩
  · obtain ⟨hlast, hevents⟩ := hkeyed.keeps_run hlock later hlater
    exact ⟨hlast, hevents, fun reply => ((hkeyed.run later).locking _).gives rfl⟩
  · unfold Machine.lockOf?
    rw [hpending, hnone]
    exact ⟨rfl, rfl⟩
  · -- Both of them are with an activity that has the lock, so it is the same activity.
    obtain ⟨o, order, left, hactivity, hattempt⟩ := hlocked.sending_of_reply_none hfirst hnone
    obtain ⟨o', order', left', hactivity', hattempt'⟩ :=
      hlocked.sending_of_reply_none hsecond hnone'
    rw [hmachine] at hactivity hactivity'
    have hlock : ∀ {attempt : Attempt} {o : Opening} {order : ClientOrder}
        {left : List ClientOrder} {session : Session},
        m.activity? attempt.activity = some (.sending o order left) →
        attempt = o.attempt attempt.activity none order →
        m.session? attempt.context = some session →
        m.lockOf? attempt.activity = some session.id := by
      intro attempt o order left session hactivity hattempt hc
      rw [hattempt] at hc
      have hsession := hattached hleaves attempt.activity _ o ⟨hactivity, rfl⟩
      rw [show m.session? o.context = some session from hc] at hsession
      cases hsession
      unfold Machine.lockOf?
      rw [hactivity]
      rfl
    have hid := hsingle _ _ _ (hlock hactivity hattempt hc)
      (heq ▸ hlock hactivity' hattempt' hc')
    rw [hid, hactivity'] at hactivity
    cases hactivity
    rw [hattempt, hattempt', hid]

section Nested

/-- A channel for remote programs sends the first record of its opening. From inside that send
somebody begins an opening for another session, on a context of his own. -/
def nestedSends : List Move :=
  armingMoves ⟨7, {}⟩ 5 ++
    [.call (.create "other" 6), .call (.call 1 (.attach ⟨8, {}⟩)),
      .call (.dispatch remoteProgramsChannel (.handshake ⟨0⟩)), .resume 4,
      .call (.call 1 .sendOpening)]

/-- The inner record goes out under the lock of the other session. The outer activity keeps its own
lock meanwhile, and gives it back when its transport fails. -/
theorem lock_discipline_nested :
    let m := ((Machine.ofRegistry { available := [remoteProgramsChannel] }).run nestedSends).1
    let failure : Move := .answer 4 (.error (.notAllowed "no connection"))
    (∃ session : Session, m.holds session.id = false ∧
      (m.step (.resume 5)).1.lockOf? 5 = some session.id ∧
      (m.step (.resume 5)).1.session? 1 = some session) ∧
    (m.run [.resume 5, .answer 5 (.ok ()), .resume 5]).1.lockOf? 4 = some 7 ∧
    ((m.run [.resume 5, .answer 5 (.ok ()), .resume 5]).1.step failure).1.lockOf? 4 = none := by
  intro m failure
  obtain ⟨-, hsend, -, hkeeps, -⟩ := lock_discipline [remoteProgramsChannel] nestedSends
  obtain ⟨session, hholds, hlock, hattached⟩ :=
    hsend (.resume 5) 5 1 6 (.handshake .client) rfl
  obtain ⟨hkept, -, hgiven⟩ := hkeeps 4 7 [.resume 5, .answer 5 (.ok ()), .resume 5] rfl
    (by decide)
  exact ⟨⟨session, hholds, hlock, hattached (by decide)⟩, hkept, (hgiven _).1⟩

end Nested

end RemotePrograms
