import RemotePrograms.Proofs.Channel.Journal
import RemotePrograms.Proofs.Channel.Lasting

/-!
# `RemotePrograms.Proofs.Channel.Handshake`: how a handshake ends under interference

Between the first and the last stretch of a handshake anything may happen, also to the context
that it is about: another handshake, a report, the end of the channel. `HandshakeOutcome` lists
the four ways in which the handshake ends all the same, and `Machine.EndsAs` says for each of them
what was sent, what the operation returns and which phase it leaves.

The induction is over the moves since the call. Its invariant, `Journal.Answers`, keeps three
things together: how far the opening has come, what was sent, and the phase, which is in flight
with the endings that came meanwhile.
-/

set_option autoImplicit false

namespace RemotePrograms

/-! ### Handshakes -/

/-- Whether an order of the server is a handshake, plain or extended. -/
def ServerOrder.isHandshake : ServerOrder → Bool
  | .handshake _ | .extendedHandshake _ => true
  | _ => false

/-- The operation hands a handshake to this context, by the name of its channel or directly. -/
def Registry.HandsHandshake (r : Registry) (c : ContextId) : Operation → Prop
  | .dispatch name order => r.channel? name = some c ∧ order.isHandshake = true
  | .call target (.dispatch order) => target = c ∧ order.isHandshake = true
  | _ => False

namespace Registry.HandsHandshake

variable {r : Registry} {c : ContextId} {operation : Operation}

/-- A handshake on an armed context goes to the support for remote programs. -/
theorem start_eq (h : r.HandsHandshake c operation) {context : Context}
    (hcontext : r.context? c = some context)
    (hhandler : context.handler = some .remotePrograms) :
    operation.start r = r.handshake c context := by
  -- The plain and the extended handshake are handled alike.
  have hhandle : ∀ order : ServerOrder, order.isHandshake = true →
      r.handle c context order = r.handshake c context := by
    intro order horder
    unfold handle
    rw [hhandler]
    cases order with
    | handshake order => rfl
    | extendedHandshake order => rfl
    | _ => cases horder
  cases operation with
  | dispatch name order =>
    obtain ⟨hchannel, horder⟩ := h
    simp only [Operation.start, hchannel, hcontext]
    exact hhandle order horder
  | call target request =>
    cases request with
    | dispatch order =>
      obtain ⟨rfl, horder⟩ := h
      simp only [Operation.start, hcontext]
      exact hhandle order horder
    | _ => cases h
  | _ => cases h

/-- To hand in a handshake is a regular move. -/
theorem isRegular (h : r.HandsHandshake c operation) :
    (Move.call operation).isRegular = true := by
  cases operation with
  | dispatch name order => rfl
  | call target request =>
    cases request with
    | dispatch order => rfl
    | _ => cases h
  | _ => cases h

/-- A handshake brings no ending onto any context. -/
theorem ending?_eq (h : r.HandsHandshake c operation) (other : ContextId) :
    r.ending? other operation = none := by
  have hnone : ∀ order : ServerOrder, order.isHandshake = true → order.ending? = none := by
    intro order horder
    cases order with
    | launchReport order => cases horder
    | _ => rfl
  cases operation with
  | dispatch name order =>
    rw [Registry.ending?, hnone order h.2, ite_self]
  | call target request =>
    cases request with
    | dispatch order =>
      rw [Registry.ending?, ContextCall.ending?, hnone order h.2, ite_self]
    | _ => cases h
  | _ => cases h

end Registry.HandsHandshake

/-! ### Endings and ends -/

/-- The phase after an ending. -/
def Phase.after (phase : Phase) (ending : Ending) : Phase :=
  phase.endedBy (some ending)

namespace Machine

/-- The endings that come onto a context in a run, in their order. -/
def endings (c : ContextId) (m : Machine) : List Move → List Ending
  | [] => []
  | move :: moves => (m.ending? c move).toList ++ endings c (m.step move).1 moves

/-- The endings of a run go on with those of the rest of it. -/
theorem endings_append (c : ContextId) (m : Machine) (moves later : List Move) :
    m.endings c (moves ++ later)
      = m.endings c moves ++ (m.run moves).1.endings c later := by
  induction moves generalizing m with
  | nil => rfl
  | cons move moves ih =>
    show _ ++ endings c _ (moves ++ later) = (_ ++ _) ++ _
    rw [ih, List.append_assoc]
    rfl

/-- The last of these moves finishes the activity, which returns this. -/
def Finishes (m : Machine) (moves : List Move) (id : ActivityId) (result : Result) : Prop :=
  ∃ before last, moves = before ++ [last] ∧
    ((m.run before).1.step last).2 = some (.returned id result)

/-- The opening `id` can go on with this move: the transport replies, or the lock for the next
record is free. -/
inductive Drives (m : Machine) (id : ActivityId) : Move → Prop where
  | resume {o : Opening} {left : List ClientOrder} :
      m.activity? id = some (.opening o left) →
      (left ≠ [] → m.holds o.session.id = false) → Drives m id (.resume id)
  | answer {o : Opening} {order : ClientOrder} {left : List ClientOrder}
      (reply : Except Error Unit) :
      m.activity? id = some (.sending o order left) → Drives m id (.answer id reply)

/-- After these moves the activity is not finished, but it can go on, unless somebody has the write
lock of the session, and each of its own moves finishes it or leaves less of it to do. -/
def UnderWay (m : Machine) (moves : List Move) (id : ActivityId) (session : SessionId) : Prop :=
  ∃ activity, (m.run moves).1.activity? id = some activity ∧ activity.stretches ≤ 9 ∧
    ((∃ move, (m.run moves).1.Drives id move) ∨ (m.run moves).1.holds session = true) ∧
    ∀ move, (m.run moves).1.Drives id move →
      (∃ result, m.Finishes (moves ++ [move]) id result) ∨
        ∃ activity', (m.run (moves ++ [move])).1.activity? id = some activity' ∧
          activity'.stretches < activity.stretches

end Machine

/-- The attempts of one activity. -/
def Journal.by (j : Journal) (id : ActivityId) : List Attempt :=
  j.sends.filter (·.activity = id)

/-- How a handshake ends. -/
inductive HandshakeOutcome where
  /-- The phase does not allow it. -/
  | refused
  /-- A record was not sent, for this reason. -/
  | broken (cause : Error)
  | completed
  /-- The records were sent, but the channel has ended meanwhile. -/
  | overtaken
  deriving DecidableEq

/-- In a run that begins with a handshake for a context and finishes it, the handshake ends in
this way. -/
inductive Machine.EndsAs (m : Machine) (c : ContextId) (context : Context) (moves : List Move)
    (result : Result) : HandshakeOutcome → Prop where
  | refused :
      context.phase ≠ .awaitingHandshake → context.phase ≠ .running →
      ((Journal.new m).run moves).by m.nextActivity = [] →
      (m.run moves).1.registry = m.registry →
      result = .error (.notAllowed "cannot handshake: channel not awaiting a handshake") →
      EndsAs m c context moves result .refused
  | broken {session : Session} {sent left : List ClientOrder} {order : ClientOrder}
      {cause : Error} :
      context.phase = .awaitingHandshake ∨ context.phase = .running →
      context.session = some session → session.settings.opening = sent ++ order :: left →
      ((Journal.new m).run moves).by m.nextActivity
        = Opening.sent ⟨c, context.transport, session, true⟩ m.nextActivity sent
          ++ [Opening.attempt ⟨c, context.transport, session, true⟩ m.nextActivity
            (some (.error cause)) order] →
      (m.run moves).1.registry.context? c = some { context with phase := .terminated .failed } →
      result = .error cause → EndsAs m c context moves result (.broken cause)
  | completed {session : Session} :
      context.phase = .awaitingHandshake ∨ context.phase = .running →
      context.session = some session →
      ((Journal.new m).run moves).by m.nextActivity
        = Opening.sent ⟨c, context.transport, session, true⟩ m.nextActivity
          session.settings.opening →
      m.endings c moves = [] →
      (m.run moves).1.registry.context? c = some { context with phase := .running } →
      result = .ok .done → EndsAs m c context moves result .completed
  | overtaken {session : Session} :
      context.phase = .awaitingHandshake ∨ context.phase = .running →
      context.session = some session →
      ((Journal.new m).run moves).by m.nextActivity
        = Opening.sent ⟨c, context.transport, session, true⟩ m.nextActivity
          session.settings.opening →
      m.endings c moves ≠ [] →
      (m.run moves).1.registry.context? c
        = some { context with phase := (m.endings c moves).foldl Phase.after .handshakeInFlight } →
      result = .error (.notAllowed "cannot complete handshake: no handshake in flight") →
      EndsAs m c context moves result .overtaken

/-! ### The induction -/

namespace Journal

/-- A handshake is being answered: its opening is under way, everything that was sent for the
context is its own, and the phase shows the endings that came meanwhile. -/
structure Answers (j : Journal) (id : ActivityId) (o : Opening) (context : Context)
    (endings : List Ending) : Prop where
  follows : ∃ activity attempts, j.machine.Opens id activity o ∧ activity.Follows id o attempts ∧
    j.on o.context = attempts ∧ activity.stretches ≤ 9
  own : ∀ attempt ∈ j.sends, attempt.activity = id → attempt.context = o.context
  context?_eq : j.machine.registry.context? o.context
    = some { context with phase := endings.foldl Phase.after .handshakeInFlight }

variable {j : Journal} {move : Move} {id : ActivityId} {o : Opening} {context : Context}
  {endings : List Ending}

/-- What an opening sends goes out for its own context. -/
private theorem own_step (h : j.machine.Consistent) (hregular : move.isRegular = true)
    {activity : Activity} (ho : j.machine.Opens id activity o)
    (hown : ∀ attempt ∈ j.sends, attempt.activity = id → attempt.context = o.context) :
    ∀ attempt ∈ (j.step move).sends, attempt.activity = id → attempt.context = o.context := by
  intro attempt hmem hid
  obtain hold | hnew := List.mem_append.mp hmem
  · obtain ⟨before, hbefore, rfl⟩ := List.mem_map.mp hold
    rw [Attempt.activity_note] at hid
    rw [Attempt.context_note]
    exact hown before hbefore hid
  · obtain ⟨event, hevent, hattempt⟩ := List.mem_filterMap.mp hnew
    have hevent' : (j.machine.step move).2 = some event := by simpa using hevent
    match event, hattempt with
    | .contact other (.send c transport order), rfl =>
      obtain ⟨activity', o', ho', hc⟩ := Machine.opens_of_send h hregular hevent'
      obtain rfl : other = id := hid
      rw [Machine.Opens, ho.1] at ho'
      cases ho'.1
      rw [ho.2] at ho'
      cases ho'.2
      exact hc.symm

/-- One more ending counts after those before it. -/
private theorem foldl_after_append (phase : Phase) (endings : List Ending)
    (ending : Option Ending) :
    (endings ++ ending.toList).foldl Phase.after phase
      = (endings.foldl Phase.after phase).endedBy ending := by
  cases ending with
  | none => rw [Option.toList_none, List.append_nil]; rfl
  | some ending => rw [Option.toList_some, List.foldl_append]; rfl

/-- After an ending, a phase has ended. -/
private theorem isTerminated_foldl_after (phase : Phase) {endings : List Ending}
    (h : endings ≠ []) : (endings.foldl Phase.after phase).isTerminated := by
  -- The first ending ends the phase, and no later one undoes that.
  have hlasts : ∀ (endings : List Ending) (phase : Phase),
      phase.Lasts (endings.foldl Phase.after phase) := by
    intro endings
    induction endings with
    | nil => exact .refl
    | cons ending endings ih => exact fun phase => (Phase.Lasts.endedBy _ phase).trans (ih _)
  cases endings with
  | nil => exact absurd rfl h
  | cons ending endings =>
    refine (hlasts endings (phase.after ending)).isTerminated ?_
    obtain ⟨hnone, -⟩ | hended := Phase.endedBy_cases (some ending) phase
    · cases hnone
    · exact hended

/-- One move while a handshake is answered: either it goes on, or it is finished by this move. -/
theorem answers_step (h : j.machine.Consistent) (hanswers : j.Answers id o context endings)
    (hregular : move.isRegular = true) :
    ((∀ result, (j.machine.step move).2 ≠ some (.returned id result)) ∧
      (j.step move).Answers id o context
        (endings ++ (j.machine.ending? o.context move).toList)) ∨
    ∃ activity, j.machine.ending? o.context move = none ∧
      (∃ result, (j.machine.step move).2 = some (.returned id result)) ∧
      Advances [] id o activity
        { context with phase := endings.foldl Phase.after .handshakeInFlight } (j.step move)
        (j.machine.step move).2 := by
  obtain ⟨⟨activity, attempts, ho, hfollows, hon, hstretches⟩, hown, hcontext⟩ := hanswers
  have hown' := own_step h hregular ho hown
  obtain hpasses | htouches := Machine.passes_or_touches h hregular o.context
  · -- The opening waits where it is, and at most one more ending has come.
    refine .inl ⟨fun result => hpasses.not_returned id activity o result rfl ho,
      ⟨activity, attempts, (hpasses.opens_iff id activity o rfl).mpr ho, hfollows, ?_, hstretches⟩,
      hown', ?_⟩
    · rw [on_step_passes hpasses fun attempt hmem hreply => ?_, hon]
      rw [hon] at hmem
      obtain ⟨hid, hout⟩ := hfollows.of_reply_none hmem hreply
      exact ⟨activity, o, rfl, hid ▸ ho, hout⟩
    · obtain ⟨⟨context', hcontext', hfits⟩, -⟩ := h.fits id activity o ho
      have hdrift := hpasses.drift
      rw [hcontext'] at hdrift
      have hafter := hdrift.of_isArmed hfits.isArmed
      rw [hcontext] at hcontext'
      cases hcontext'
      rw [foldl_after_append]
      exact hafter
  · -- It is the opening's own move, for there is no other opening on the context.
    have hadvances := advances h hcontext ho hfollows (hon.trans (List.nil_append _).symm)
      (fun _ hmem => by cases hmem) htouches
    have hending := htouches.ending?_eq o.context
    cases hcase : hadvances with
    | goes activity' attempts' ho' hfollows' hless hon' hcontext' hreturned =>
      refine .inl ⟨hreturned, ⟨activity', attempts', ho', hfollows', hon', by omega⟩, hown', ?_⟩
      rw [hending, Option.toList_none, List.append_nil]
      exact hcontext'
    | fails _ _ _ _ hevent => exact .inr ⟨activity, hending, ⟨_, hevent⟩, hadvances⟩
    | completes _ _ _ _ hevent => exact .inr ⟨activity, hending, ⟨_, hevent⟩, hadvances⟩
    | overtaken _ _ _ _ hevent => exact .inr ⟨activity, hending, ⟨_, hevent⟩, hadvances⟩

/-- While no move has finished the handshake, it is being answered. -/
theorem answers_run (h : j.machine.Consistent) (hanswers : j.Answers id o context endings)
    (moves : List Move) (hregular : ∀ move ∈ moves, move.isRegular = true) :
    (j.run moves).Answers id o context (endings ++ j.machine.endings o.context moves) ∨
      ∃ before last later result, moves = before ++ last :: later ∧
        ((j.machine.run before).1.step last).2 = some (.returned id result) := by
  induction moves generalizing j endings with
  | nil =>
    refine .inl ?_
    show j.Answers id o context (endings ++ [])
    rw [List.append_nil]
    exact hanswers
  | cons move moves ih =>
    have hmove := hregular move List.mem_cons_self
    obtain ⟨-, hstep⟩ | ⟨-, -, ⟨result, hreturned⟩, -⟩ := answers_step h hanswers hmove
    · obtain hrun | ⟨before, last, later, result, rfl, hreturned⟩ :=
        ih (Machine.consistent_step h hmove) hstep
          fun other hother => hregular other (List.mem_cons_of_mem _ hother)
      · rw [List.append_assoc] at hrun
        exact .inl hrun
      · exact .inr ⟨move :: before, last, later, result, rfl, hreturned⟩
    · exact .inr ⟨[], move, moves, result, rfl, hreturned⟩

/-- A handshake that is not refused is being answered. -/
theorem answers_begins {m : Machine} {c : ContextId} {operation : Operation}
    (hbegins : m.registry.Begins c (operation.start m.registry))
    (hcontext : m.registry.context? c = some context) {session : Session}
    (hsession : context.session = some session) :
    (m.step (.call operation)).2 = none ∧
      ((Journal.new m).step (.call operation)).Answers m.nextActivity
        ⟨c, context.transport, session, true⟩ context [] := by
  obtain ⟨hopens, hcontext', hsends, hevent⟩ :=
    begins (j := Journal.new m) hbegins hcontext hsession
  have hfollows : (Activity.opening ⟨c, context.transport, session, true⟩
      session.settings.opening).Follows m.nextActivity ⟨c, context.transport, session, true⟩
      (Opening.sent ⟨c, context.transport, session, true⟩ m.nextActivity []) := .between rfl
  refine ⟨hevent, ⟨_, _, hopens, hfollows, ?_, Nat.le_refl 9⟩, fun attempt hmem => ?_, hcontext'⟩
  · exact congrArg (List.filter _) hsends
  · rw [hsends] at hmem
    cases hmem

/-- When all attempts on a context are those of one activity and the other way round, it does not
matter which of both one looks at. -/
private theorem by_eq_on {c : ContextId}
    (hown : ∀ attempt ∈ j.sends, attempt.activity = id → attempt.context = c)
    (hon : ∀ attempt ∈ j.on c, attempt.activity = id) : j.by id = j.on c := by
  refine List.filter_congr fun attempt hmem => decide_eq_decide.mpr ⟨hown attempt hmem, ?_⟩
  exact fun hc => hon attempt (List.mem_filter.mpr ⟨hmem, decide_eq_true hc⟩)

end Journal

/-! ### The four ways -/

namespace Machine

variable {m : Machine} {c : ContextId} {context : Context} {moves : List Move} {result : Result}

/-- The last move of a handshake that was being answered ends it in one of the ways. -/
private theorem exists_endsAs {session : Session} {before : List Move} {last : Move}
    (h : (m.run before).1.Consistent)
    (hphase : context.phase = .awaitingHandshake ∨ context.phase = .running)
    (hsession : context.session = some session)
    (hanswers : ((Journal.new m).run before).Answers m.nextActivity
      ⟨c, context.transport, session, true⟩ context (m.endings c before))
    (hregular : last.isRegular = true)
    (hevent : ((m.run before).1.step last).2 = some (.returned m.nextActivity result)) :
    ∃ outcome, m.EndsAs c context (before ++ [last]) result outcome := by
  have hmachine : ((Journal.new m).run before).machine = (m.run before).1 :=
    Journal.machine_run _ _
  have hrun : (m.run (before ++ [last])).1 = ((m.run before).1.step last).1 := by
    rw [run_append]
    rfl
  have hjournal : (Journal.new m).run (before ++ [last])
      = ((Journal.new m).run before).step last := by
    rw [Journal.run_append]
    rfl
  -- The finishing move is one of the opening's own, so it brings no ending itself.
  rw [← hmachine] at h hevent hrun
  obtain ⟨hnot, -⟩ | ⟨activity, hending, -, hadvances⟩ :=
    Journal.answers_step h hanswers hregular
  · exact absurd hevent (hnot result)
  · have hown := hanswers.own
    obtain ⟨activity', attempts, ho, -⟩ := hanswers.follows
    have hown' := Journal.own_step h hregular ho hown
    have hendings : m.endings c (before ++ [last]) = m.endings c before := by
      rw [endings_append]
      show _ ++ (((m.run before).1.ending? c last).toList ++ []) = _
      rw [← hmachine, show Machine.ending? _ c last = none from hending]
      exact List.append_nil _
    -- On the context there are no attempts but those of this handshake.
    have hby : ∀ attempts : List Attempt,
        (((Journal.new m).run before).step last).on c = attempts →
        (∀ attempt ∈ attempts, attempt.activity = m.nextActivity) →
        ((Journal.new m).run (before ++ [last])).by m.nextActivity = attempts := by
      intro attempts hon hall
      rw [hjournal, ← hon]
      exact Journal.by_eq_on hown' fun attempt hmem => hall attempt (hon ▸ hmem)
    have hsent : ∀ orders, ∀ attempt ∈
        Opening.sent ⟨c, context.transport, session, true⟩ m.nextActivity orders,
        attempt.activity = m.nextActivity := by
      intro orders attempt hmem
      obtain ⟨order, -, rfl⟩ := List.mem_map.mp hmem
      rfl
    cases hadvances with
    | goes _ _ _ _ _ _ _ hnot => exact absurd hevent (hnot result)
    | @fails sent left order cause hopening hon _ hcontext hreturned =>
      rw [hevent] at hreturned
      cases hreturned
      refine ⟨.broken cause, .broken hphase hsession hopening (hby _ hon ?_) ?_ rfl⟩
      · intro attempt hmem
        obtain hmem | hmem := List.mem_append.mp hmem
        · exact hsent sent attempt hmem
        · rw [List.mem_singleton.mp hmem]
          rfl
      · rw [hrun]
        exact hcontext
    | completes hon _ hinFlight hcontext hreturned =>
      rw [hevent] at hreturned
      cases hreturned
      refine ⟨.completed, .completed hphase hsession (hby _ hon (hsent _)) ?_ ?_ rfl⟩
      · -- The phase is still in flight, so nothing has ended the channel meanwhile.
        rw [hendings]
        by_cases hnil : m.endings c before = []
        · exact hnil
        · have hterminated := Journal.isTerminated_foldl_after .handshakeInFlight hnil
          rw [show (m.endings c before).foldl Phase.after .handshakeInFlight = _ from hinFlight]
            at hterminated
          cases hterminated
      · rw [hrun]
        exact hcontext
    | overtaken hon _ hterminated hcontext hreturned =>
      rw [hevent] at hreturned
      cases hreturned
      refine ⟨.overtaken, .overtaken hphase hsession (hby _ hon (hsent _)) ?_ ?_ rfl⟩
      · rw [hendings]
        intro hnil
        rw [hnil] at hterminated
        cases hterminated
      · rw [hrun, hendings]
        exact hcontext

/-- The four ways exclude each other. -/
theorem EndsAs.unique {outcome other : HandshakeOutcome}
    (h : m.EndsAs c context moves result outcome) (h' : m.EndsAs c context moves result other) :
    other = outcome := by
  -- A failed attempt is not among successful ones.
  have hne : ∀ {o : Opening} {id : ActivityId} {sent orders : List ClientOrder}
      {order : ClientOrder} {cause : Error},
      o.sent id sent ++ [o.attempt id (some (.error cause)) order] ≠ o.sent id orders := by
    intro o id sent orders order cause heq
    have hmem : o.attempt id (some (.error cause)) order ∈ o.sent id orders := by
      rw [← heq]
      exact List.mem_append_right _ (List.mem_singleton.mpr rfl)
    have hreply := Opening.reply_of_mem_sent hmem
    cases hreply
  -- The first way differs from the others by the phase at the start, the next two by what is
  -- returned, and the last by the endings or the attempts.
  cases h with
  | refused hawaiting hrunning =>
    cases h' with
    | refused => rfl
    | broken hphase => exact (hphase.elim hawaiting hrunning).elim
    | completed hphase => exact (hphase.elim hawaiting hrunning).elim
    | overtaken hphase => exact (hphase.elim hawaiting hrunning).elim
  | broken hphase hsession _ hby _ hresult =>
    cases h' with
    | refused hawaiting hrunning => exact (hphase.elim hawaiting hrunning).elim
    | broken _ _ _ _ _ hresult' =>
      rw [hresult] at hresult'
      cases hresult'
      rfl
    | completed _ _ _ _ _ hresult' =>
      rw [hresult] at hresult'
      cases hresult'
    | overtaken _ hsession' hby' =>
      rw [hsession] at hsession'
      cases hsession'
      exact absurd (hby.symm.trans hby') hne
  | completed hphase hsession _ hendings _ hresult =>
    cases h' with
    | refused hawaiting hrunning => exact (hphase.elim hawaiting hrunning).elim
    | broken _ _ _ _ _ hresult' =>
      rw [hresult] at hresult'
      cases hresult'
    | completed => rfl
    | overtaken _ _ _ hendings' => exact absurd hendings hendings'
  | overtaken hphase hsession hby hendings =>
    cases h' with
    | refused hawaiting hrunning => exact (hphase.elim hawaiting hrunning).elim
    | broken _ hsession' _ hby' =>
      rw [hsession] at hsession'
      cases hsession'
      exact absurd (hby'.symm.trans hby) hne
    | completed _ _ _ hendings' => exact absurd hendings' hendings
    | overtaken => rfl

/-! ### Progress -/

/-- A move of an opening's own ends it or leaves less of it to do. -/
theorem drives_step {id : ActivityId} {move : Move} (h : m.Drives id move) {activity : Activity}
    (hactivity : m.activity? id = some activity) :
    (∃ result, (m.step move).2 = some (.returned id result)) ∨
      ∃ activity', (m.step move).1.activity? id = some activity' ∧
        activity'.stretches < activity.stretches := by
  cases h with
  | @resume o left hopening hlock =>
    rw [hactivity] at hopening
    cases hopening
    rw [step_resume hactivity rfl]
    cases left with
    | nil =>
      -- Whatever the phase says, completing returns.
      refine .inl ?_
      rw [event_enter]
      show ∃ result, (m.registry.completeOpening o).2.event? id = _
      unfold Registry.completeOpening
      split
      · split
        · exact ⟨_, rfl⟩
        · split
          · exact ⟨_, rfl⟩
          · exact ⟨_, rfl⟩
      · exact ⟨_, rfl⟩
    | cons order left =>
      refine .inr ⟨.sending o order left, ?_, ?_⟩
      · rw [activity?_enter_self, Activity.resume,
          if_pos (by simpa using hlock (List.cons_ne_nil _ _))]
        rfl
      · show 2 * left.length + 2 < 2 * (left.length + 1) + 1
        omega
  | @answer o order left reply hsending =>
    rw [hactivity] at hsending
    cases hsending
    rw [step_answer reply hactivity rfl]
    cases reply with
    | ok value =>
      refine .inr ⟨.opening o left, activity?_enter_self .., ?_⟩
      show 2 * left.length + 1 < 2 * left.length + 2
      omega
    -- A record that is not sent ends the opening at once.
    | error cause => exact .inl ⟨_, rfl⟩

/-- An opening can go on, unless it needs a lock that is not free. -/
theorem exists_drives {id : ActivityId} {activity : Activity} {o : Opening}
    (ho : m.Opens id activity o) :
    (∃ move, m.Drives id move) ∨ m.holds o.session.id = true := by
  obtain ⟨hactivity, hopening⟩ := ho
  cases activity with
  | opening o' left =>
    cases hopening
    cases hlock : m.holds o.session.id with
    | true => exact .inr rfl
    | false => exact .inl ⟨_, .resume hactivity fun _ => hlock⟩
  | sending o' order left =>
    cases hopening
    exact .inl ⟨_, .answer (.ok ()) hactivity⟩
  | _ => cases hopening

/-! ### From the call on -/

variable {operation : Operation} {later : List Move}

/-- An opening that is being answered is under way. -/
private theorem underWay {moves : List Move} {id : ActivityId} {o : Opening}
    {endings : List Ending}
    (h : ((Journal.new m).run moves).Answers id o context endings) :
    m.UnderWay moves id o.session.id := by
  obtain ⟨activity, attempts, hopens, -, -, hstretches⟩ := h.follows
  rw [Journal.machine_run] at hopens
  have hopens : (m.run moves).1.Opens id activity o := hopens
  refine ⟨activity, hopens.1, hstretches, exists_drives hopens, fun move hdrives => ?_⟩
  obtain ⟨result, hresult⟩ | ⟨activity', hactivity', hless⟩ := drives_step hdrives hopens.1
  · exact .inl ⟨result, moves, move, rfl, hresult⟩
  · refine .inr ⟨activity', ?_, hless⟩
    rw [run_append]
    exact hactivity'

/-- A refused handshake is finished by its call. -/
private theorem ends_of_refused (later : List Move) (hawaiting : context.phase ≠ .awaitingHandshake)
    (hrunning : context.phase ≠ .running)
    (hstart : operation.start m.registry
      = m.registry.refuse (.notAllowed "cannot handshake: channel not awaiting a handshake")) :
    m.Finishes [.call operation] m.nextActivity
        (.error (.notAllowed "cannot handshake: channel not awaiting a handshake")) ∧
      ∀ result, m.Finishes (.call operation :: later) m.nextActivity result →
        m.EndsAs c context (.call operation :: later) result .refused := by
  have hstep := step_call m operation
  rw [hstart] at hstep
  have hevent : (m.step (.call operation)).2 = some (.returned m.nextActivity
      (.error (.notAllowed "cannot handshake: channel not awaiting a handshake"))) := by
    rw [hstep]
    rfl
  refine ⟨⟨[], .call operation, rfl, hevent⟩, ?_⟩
  rintro result ⟨before, last, hmoves, hreturned⟩
  cases before with
  | nil =>
    obtain ⟨rfl, rfl⟩ := List.cons.inj hmoves
    rw [show ((m.run []).1.step (.call operation)).2 = _ from hevent] at hreturned
    cases hreturned
    refine .refused hawaiting hrunning ?_ ?_ rfl
    · show List.filter _ ([] ++ (m.step (.call operation)).2.toList.filterMap _) = []
      rw [hevent]
      rfl
    · show (m.step (.call operation)).1.registry = m.registry
      rw [hstep, registry_enter]
      rfl
  | cons first before =>
    -- Nothing returns twice.
    obtain ⟨rfl, -⟩ := List.cons.inj hmoves
    refine absurd hreturned (not_returned_again [] ?_ hevent)
    show m.nextActivity < (m.step (.call operation)).1.nextActivity
    rw [nextActivity_step_call]
    exact Nat.lt_succ_self _

/-- A handshake that is answered is under way until it ends. -/
private theorem ends_of_begins (h : m.Consistent)
    (hcontext : m.registry.context? c = some context) {session : Session}
    (hsession : context.session = some session)
    (hphase : context.phase = .awaitingHandshake ∨ context.phase = .running)
    (hbegins : m.registry.Begins c (operation.start m.registry))
    (hending : m.registry.ending? c operation = none)
    (hregular : (Move.call operation).isRegular = true)
    (hlater : ∀ move ∈ later, move.isRegular = true) :
    (∀ result, m.Finishes (.call operation :: later) m.nextActivity result →
      ∃ outcome, m.EndsAs c context (.call operation :: later) result outcome) ∧
    ((∃ part result, part <+: .call operation :: later ∧
        m.Finishes part m.nextActivity result) ∨
      m.UnderWay (.call operation :: later) m.nextActivity session.id) := by
  obtain ⟨hevent, hanswers⟩ := Journal.answers_begins hbegins hcontext hsession
  have hstep := consistent_step h hregular
  -- The state of the handshake after some of the moves.
  have hrun : ∀ moves, (∀ move ∈ moves, move.isRegular = true) →
      ((Journal.new m).run (.call operation :: moves)).Answers m.nextActivity
          ⟨c, context.transport, session, true⟩ context (m.endings c (.call operation :: moves)) ∨
        ∃ before last rest result, .call operation :: moves = before ++ last :: rest ∧
          m.nextActivity < ((m.run before).1.step last).1.nextActivity ∧
          ((m.run before).1.step last).2 = some (.returned m.nextActivity result) := by
    intro moves hmoves
    obtain hlive | ⟨before, last, rest, result, rfl, hreturned⟩ :=
      Journal.answers_run hstep hanswers moves hmoves
    · refine .inl ?_
      show (((Journal.new m).step (.call operation)).run moves).Answers _ _ _
        ((m.registry.ending? c operation).toList ++ _)
      rw [hending]
      exact hlive
    · refine .inr ⟨.call operation :: before, last, rest, result, rfl, ?_, hreturned⟩
      refine Nat.lt_of_lt_of_le ?_ (Nat.le_trans (nextActivity_le_run _ before)
        (nextActivity_le_step _ last))
      show m.nextActivity < (m.step (.call operation)).1.nextActivity
      rw [nextActivity_step_call]
      exact Nat.lt_succ_self _
  refine ⟨?_, ?_⟩
  · rintro result ⟨before, last, hmoves, hreturned⟩
    rw [hmoves]
    -- The call itself does not finish a handshake that is answered.
    cases before with
    | nil =>
      obtain ⟨rfl, -⟩ := List.cons.inj hmoves
      rw [show ((m.run []).1.step (.call operation)).2 = none from hevent] at hreturned
      cases hreturned
    | cons first before =>
      obtain ⟨rfl, rfl⟩ := List.cons.inj hmoves
      have hbefore : ∀ move ∈ before, move.isRegular = true :=
        fun move hmem => hlater move (List.mem_append_left _ hmem)
      obtain hlive | ⟨part, last', rest, result', hpart, hnext, hreturned'⟩ := hrun before hbefore
      · exact exists_endsAs (consistent_run hstep before hbefore) hphase hsession hlive
          (hlater last (List.mem_append_right _ (List.mem_singleton.mpr rfl))) hreturned
      · rw [hpart] at hreturned
        exact absurd hreturned (not_returned_again part hnext hreturned')
  · obtain hlive | ⟨part, last, rest, result, hpart, -, hreturned⟩ := hrun later hlater
    · exact .inr (underWay hlive)
    · refine .inl ⟨part ++ [last], result, ⟨rest, ?_⟩, part, last, rfl, hreturned⟩
      rw [hpart, List.append_assoc]
      rfl

end Machine

/-- However other operations interfere, a handshake for an armed context ends in exactly one of the
four ways. It does not stop short of that: while it is not finished it can go on, unless somebody
has the write lock, and at most nine moves of its own are left. And in every run what has ended
stays so, and a channel runs only once all records of an opening were sent. -/
theorem handshake_outcome (available : List String) (moves : List Move)
    (hregular : ∀ move ∈ moves, move.isRegular = true) (c : ContextId) (context : Context)
    (hcontext : ((Machine.ofRegistry { available }).run moves).1.registry.context? c
      = some context)
    (hhandler : context.handler = some .remotePrograms) :
    let m := ((Machine.ofRegistry { available }).run moves).1
    (∀ operation later, m.registry.HandsHandshake c operation →
      (∀ move ∈ later, move.isRegular = true) →
      (∀ result, m.Finishes (.call operation :: later) m.nextActivity result →
        ∃ outcome, m.EndsAs c context (.call operation :: later) result outcome ∧
          ∀ other, m.EndsAs c context (.call operation :: later) result other →
            other = outcome) ∧
      ((∃ part result, part <+: .call operation :: later ∧
          m.Finishes part m.nextActivity result) ∨
        ∃ session, context.session = some session ∧
          m.UnderWay (.call operation :: later) m.nextActivity session.id)) ∧
    (∀ later, (∀ move ∈ later, move.isRegular = true) →
      ∃ context', (m.run later).1.registry.context? c = some context' ∧
        context.phase.Lasts context'.phase) ∧
    ∀ move context', move.isRegular = true →
      (m.step move).1.registry.context? c = some context' → context'.phase = .running →
      context.phase = .running ∨
        ∃ id o, m.activity? id = some (.opening o []) ∧ o.context = c ∧
          (m.step move).2 = some (.returned id (.ok .done)) := by
  intro m
  have h : m.Consistent :=
    Machine.consistent_run (Machine.consistent_ofRegistry available) moves hregular
  -- A bare context has no handler.
  have harmed : context.IsArmed := by
    obtain harmed | hbare := h.orderly c context hcontext
    · exact harmed
    · rw [hbare.handler_eq] at hhandler
      cases hhandler
  refine ⟨fun operation later hhands hlater => ?_, fun later hlater =>
    Machine.lasts_run h hcontext later hlater, fun move context' hmove hcontext' hrunning => ?_⟩
  · have hstart := hhands.start_eq hcontext hhandler
    obtain hbegins | ⟨hawaiting, hrunning, hrefused⟩ :=
      Registry.handshake_cases hcontext harmed
    · rw [← hstart] at hbegins
      obtain ⟨context', session, hcontext', -, hphase, hsession, -⟩ := id hbegins
      rw [hcontext] at hcontext'
      cases hcontext'
      obtain ⟨hends, hgoes⟩ := Machine.ends_of_begins h hcontext hsession hphase hbegins
        (hhands.ending?_eq c) hhands.isRegular hlater
      refine ⟨fun result hfinishes => ?_, hgoes.imp_right fun hunder => ⟨session, hsession, hunder⟩⟩
      obtain ⟨outcome, houtcome⟩ := hends result hfinishes
      exact ⟨outcome, houtcome, fun other hother => houtcome.unique hother⟩
    · obtain ⟨hfinishes, hends⟩ := Machine.ends_of_refused (c := c) later hawaiting hrunning
        (hstart.trans hrefused)
      exact ⟨fun result hresult => ⟨.refused, hends result hresult,
          fun other hother => (hends result hresult).unique hother⟩,
        .inl ⟨[.call operation], _, ⟨later, rfl⟩, hfinishes⟩⟩
  · obtain ⟨other, hother, -, hruns⟩ := Machine.phase_step h hmove hcontext
    rw [hcontext'] at hother
    cases hother
    exact hruns hrunning

/-- The channel is taken away between the second and the third record, and the handshake ends in
one of the ways all the same. -/
theorem handshake_outcome_disconnected :
    ∃ outcome, ((Machine.ofRegistry { available := [remoteProgramsChannel] }).run
        (armingMoves ⟨7, {}⟩ 0)).1.EndsAs 0
      ⟨remoteProgramsChannel, 0, some ⟨7, {}⟩, some .remotePrograms, .awaitingHandshake⟩
      [.call (.dispatch remoteProgramsChannel (.handshake ⟨0⟩)), .resume 2, .answer 2 (.ok ()),
        .resume 2, .call (.disconnect remoteProgramsChannel), .answer 2 (.ok ()), .resume 2,
        .answer 2 (.ok ()), .resume 2, .answer 2 (.ok ()), .resume 2]
      (.error (.notAllowed "cannot complete handshake: no handshake in flight")) outcome := by
  obtain ⟨houtcome, -⟩ := handshake_outcome [remoteProgramsChannel] (armingMoves ⟨7, {}⟩ 0)
    (by decide) 0
    ⟨remoteProgramsChannel, 0, some ⟨7, {}⟩, some .remotePrograms, .awaitingHandshake⟩ (by decide)
    rfl
  obtain ⟨hends, -⟩ := houtcome (.dispatch remoteProgramsChannel (.handshake ⟨0⟩))
    [.resume 2, .answer 2 (.ok ()), .resume 2, .call (.disconnect remoteProgramsChannel),
      .answer 2 (.ok ()), .resume 2, .answer 2 (.ok ()), .resume 2, .answer 2 (.ok ()), .resume 2]
    ⟨by decide, rfl⟩ (by decide)
  obtain ⟨outcome, houtcome, -⟩ := hends _
    ⟨[.call (.dispatch remoteProgramsChannel (.handshake ⟨0⟩)), .resume 2, .answer 2 (.ok ()),
      .resume 2, .call (.disconnect remoteProgramsChannel), .answer 2 (.ok ()), .resume 2,
      .answer 2 (.ok ()), .resume 2, .answer 2 (.ok ())], .resume 2, rfl, rfl⟩
  exact ⟨outcome, houtcome⟩

end RemotePrograms
