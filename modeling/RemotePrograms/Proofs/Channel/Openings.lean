import RemotePrograms.Proofs.Channel.Regular

/-!
# `RemotePrograms.Proofs.Channel.Openings`: one opening at a time on each context

An opening is separated from the phase that it answers for: it goes on record by record while
other operations move the same phase. What ties the two together is `Machine.Consistent`: an
opening that is under way belongs to an armed context, carries that context's own session and
transport, finds the phase in flight or ended, and is the only one on its context. The reason is
the phase. A handshake begins an opening only in a phase that no context with an opening is in.

`turn` sorts the moves of a consistent machine by what they do, and from it follow
`consistent_run` and `passes_or_touches`. The second says for one context what a move does to its
phase, to its opening and to the outside, and it is all that the statements about handshakes
need of the machine.
-/

set_option autoImplicit false

namespace RemotePrograms

/-! ### Openings under way -/

/-- How far an opening has come: these records were sent, and the rest is still to do. -/
inductive Activity.IsAt (o : Opening) (sent : List ClientOrder) : Activity → Prop where
  | between {left : List ClientOrder} :
      o.session.settings.opening = sent ++ left → IsAt o sent (.opening o left)
  | trying {order : ClientOrder} {left : List ClientOrder} :
      o.session.settings.opening = sent ++ order :: left → IsAt o sent (.sending o order left)

/-- An opening that answers a handshake on this context, in a phase that allows it to be under
way. -/
structure Opening.Fits (o : Opening) (context : Context) : Prop where
  isArmed : context.IsArmed
  transport_eq : o.transport = context.transport
  session_eq : context.session = some o.session
  guarded_eq : o.guarded = true
  phase_cases : context.phase = .handshakeInFlight ∨ context.phase.isTerminated

/-- An armed context stays armed in every phase but the two before arming. -/
theorem Context.IsArmed.withPhase {context : Context} (h : context.IsArmed) {phase : Phase}
    (hdisconnected : phase ≠ .disconnected) (hconnected : phase ≠ .channelConnected) :
    { context with phase }.IsArmed :=
  ⟨h.name_eq, h.handler_eq, h.session_isSome, hdisconnected, hconnected⟩

/-- An armed context stays armed when it ends. -/
theorem Context.IsArmed.endedBy {context : Context} (h : context.IsArmed)
    (ending : Option Ending) :
    { context with phase := context.phase.endedBy ending }.IsArmed := by
  cases ending with
  | none => exact h
  | some ending =>
    cases ending with
    | failed => exact h.withPhase (by simp [Phase.endedBy, Phase.failed]) (by
        simp [Phase.endedBy, Phase.failed])
    | closed =>
      -- Both results of closing are ends.
      refine h.withPhase ?_ ?_
      · show context.phase.close ≠ .disconnected
        unfold Phase.close
        split <;> simp
      · show context.phase.close ≠ .channelConnected
        unfold Phase.close
        split <;> simp

/-- An ending ends a phase, and what has ended stays so. -/
theorem Phase.endedBy_cases (ending : Option Ending) (phase : Phase) :
    (ending = none ∧ phase.endedBy ending = phase) ∨ (phase.endedBy ending).isTerminated := by
  cases ending with
  | none => exact .inl ⟨rfl, rfl⟩
  | some ending =>
    refine .inr ?_
    cases ending with
    | failed => rfl
    | closed =>
      show phase.close.isTerminated
      unfold Phase.close
      split
      · rfl
      · rfl

/-- No context is armed and bare. -/
theorem Context.IsArmed.not_isBare {context : Context} (h : context.IsArmed) :
    ¬ context.IsBare := by
  intro hbare
  have hnone := hbare.handler_eq
  rw [h.handler_eq] at hnone
  cases hnone

/-- All that a drift does to an armed context is the ending that came. -/
theorem Drift.of_isArmed {ending : Option Ending} {context : Context} {after : Option Context}
    (h : Drift ending (some context) after) (harmed : context.IsArmed) :
    after = some { context with phase := context.phase.endedBy ending } := by
  cases h with
  | bare hbare => exact absurd hbare harmed.not_isBare
  | armed hbare => exact absurd hbare harmed.not_isBare
  | kept => rfl

/-- An opening goes on fitting a context that drifts. -/
theorem Opening.Fits.drift {o : Opening} {context : Context} (h : o.Fits context)
    {ending : Option Ending} {after : Option Context} (hdrift : Drift ending (some context) after) :
    ∃ context', after = some context' ∧ o.Fits context' := by
  refine ⟨_, hdrift.of_isArmed h.isArmed, h.isArmed.endedBy ending, h.transport_eq, h.session_eq,
    h.guarded_eq, ?_⟩
  obtain ⟨-, hsame⟩ | hended := Phase.endedBy_cases ending context.phase
  · show context.phase.endedBy ending = _ ∨ _
    rw [hsame]
    exact h.phase_cases
  · exact .inr hended

namespace Registry

variable {r r' : Registry}

/-- The context that is put into a phase is in that phase. -/
theorem context?_setPhase_self {id : ContextId} {context : Context}
    (h : r.context? id = some context) (phase : Phase) :
    (r.setPhase id phase).context? id = some { context with phase } := by
  unfold setPhase
  rw [context?_update, if_pos rfl, h]
  rfl

/-- All the other contexts stay as they are. -/
theorem context?_setPhase_ne {id other : ContextId} (h : other ≠ id) (phase : Phase) :
    (r.setPhase id phase).context? other = r.context? other := by
  unfold setPhase
  rw [context?_update, if_neg h]

/-- Where contexts only drift, each of them stays armed or bare. -/
theorem IsOrderly.of_drifts {endings : ContextId → Option Ending} (h : r.Drifts r' endings) :
    r'.IsOrderly := by
  intro id context hcontext
  have hdrift := h id
  rw [hcontext] at hdrift
  generalize r.context? id = before at hdrift
  -- Every drift says of the context behind it whether it is armed or bare.
  cases hdrift with
  | made hbare => exact .inr hbare
  | bare _ hbare _ => exact .inr hbare
  | armed _ harmed _ _ => exact .inl harmed
  | kept harmed => exact .inl (harmed.endedBy _)

/-- An armed context may go on to any phase but the two before arming. -/
theorem IsOrderly.setPhase (h : r.IsOrderly) {id : ContextId} {context : Context}
    (hcontext : r.context? id = some context) (harmed : context.IsArmed) {phase : Phase}
    (hdisconnected : phase ≠ .disconnected) (hconnected : phase ≠ .channelConnected) :
    (r.setPhase id phase).IsOrderly := by
  intro other context' hcontext'
  by_cases hother : other = id
  · subst hother
    rw [context?_setPhase_self hcontext] at hcontext'
    cases hcontext'
    exact .inl (harmed.withPhase hdisconnected hconnected)
  · rw [context?_setPhase_ne hother] at hcontext'
    exact h other context' hcontext'

/-- The end of an opening whose records were all sent: the context runs, unless it has ended
meanwhile. -/
theorem completeOpening_cases {o : Opening} {context : Context}
    (hcontext : r.context? o.context = some context) (hfits : o.Fits context) :
    (context.phase = .handshakeInFlight ∧
      r.completeOpening o = (r.setPhase o.context .running).done) ∨
    (context.phase.isTerminated ∧
      r.completeOpening o
        = r.refuse (.notAllowed "cannot complete handshake: no handshake in flight")) := by
  obtain hphase | hphase := hfits.phase_cases
  · refine .inl ⟨hphase, ?_⟩
    simp only [completeOpening, hfits.guarded_eq, hcontext, hphase, Phase.completeHandshake,
      if_true]
  · refine .inr ⟨hphase, ?_⟩
    cases hcase : context.phase with
    | terminated ending =>
      simp only [completeOpening, hfits.guarded_eq, hcontext, hcase, Phase.completeHandshake,
        if_true]
    | _ =>
      rw [hcase] at hphase
      cases hphase

end Registry

namespace Machine

/-- The activity of this number is the opening `o`. -/
def Opens (m : Machine) (id : ActivityId) (activity : Activity) (o : Opening) : Prop :=
  m.activity? id = some activity ∧ activity.opening? = some o

/-- What is under way agrees with the state of the contexts. -/
structure Consistent (m : Machine) : Prop where
  orderly : m.registry.IsOrderly
  fresh : ∀ id activity, m.activity? id = some activity → id < m.nextActivity
  fits : ∀ id activity o, m.Opens id activity o →
    (∃ context, m.registry.context? o.context = some context ∧ o.Fits context) ∧
      ∃ sent, activity.IsAt o sent
  single : ∀ id id' activity activity' o o', m.Opens id activity o → m.Opens id' activity' o' →
    o.context = o'.context → id = id'

/-- The ending that a move brings onto a context. -/
def ending? (m : Machine) (context : ContextId) : Move → Option Ending
  | .call operation => m.registry.ending? context operation
  | _ => none

/-- A move that carries the opening of one context on. -/
inductive Touches (m : Machine) (c : ContextId) : Move → Machine × Option Event → Prop where
  /-- A handshake is answered. -/
  | begins {operation : Operation} :
      m.registry.Begins c (operation.start m.registry) →
      (∀ other, m.registry.ending? other operation = none) →
      Touches m c (.call operation)
        ((m.numbered (.call operation)).enter m.nextActivity (operation.start m.registry))
  | tries {id : ActivityId} {o : Opening} {order : ClientOrder} {left : List ClientOrder} :
      o.context = c → m.activity? id = some (.opening o (order :: left)) →
      m.holds o.session.id = false →
      Touches m c (.resume id) (m.enter id
        (m.registry, .waits (.send o.context o.transport order) (.sending o order left)))
  | sent {id : ActivityId} {o : Opening} {order : ClientOrder} {left : List ClientOrder} :
      o.context = c → m.activity? id = some (.sending o order left) →
      Touches m c (.answer id (.ok ())) (m.enter id (m.registry, .continues (.opening o left)))
  | fails {id : ActivityId} {o : Opening} {order : ClientOrder} {left : List ClientOrder}
      {cause : Error} :
      o.context = c → m.activity? id = some (.sending o order left) →
      Touches m c (.answer id (.error cause))
        (m.enter id (m.registry.failOpening o.context o.guarded cause))
  | completes {id : ActivityId} {o : Opening} :
      o.context = c → m.activity? id = some (.opening o []) →
      Touches m c (.resume id) (m.enter id (m.registry.completeOpening o))

/-- What a move of a consistent machine amounts to. -/
inductive Turn (m : Machine) : Move → Machine × Option Event → Prop where
  /-- The move does not fit the activity, or there is none. -/
  | idle {move : Move} : (∀ operation, move ≠ .call operation) →
      (∀ id reply activity, move = .answer id reply → m.activity? id = some activity →
        activity.isOutside = false) →
      Turn m move (m, none)
  /-- The write lock is not free. -/
  | blocked {id : ActivityId} {o : Opening} {order : ClientOrder} {left : List ClientOrder} :
      m.activity? id = some (.opening o (order :: left)) → m.holds o.session.id = true →
      Turn m (.resume id) (m.enter id (m.registry, .continues (.opening o (order :: left))))
  /-- The stretch is not part of an opening. -/
  | quiet (move : Move) {id : ActivityId} {stretch : Stretch} :
      stretch.2.IsQuiet →
      m.registry.Drifts stretch.1 (fun context => m.ending? context move) →
      (∀ activity o, ¬ m.Opens id activity o) →
      (∀ other reply, move = .answer other reply → other = id) →
      id < (m.numbered move).nextActivity →
      Turn m move ((m.numbered move).enter id stretch)
  | touches {c : ContextId} {move : Move} {next : Machine × Option Event} :
      m.Touches c move next → Turn m move next

/-- An activity that belongs to no opening is no opening. -/
theorem not_opens {m : Machine} {id : ActivityId} {activity activity' : Activity} {o : Opening}
    (hactivity : m.activity? id = some activity) (hopening : activity.opening? = none) :
    ¬ m.Opens id activity' o := by
  rintro ⟨hactivity', hopening'⟩
  rw [hactivity] at hactivity'
  cases hactivity'
  rw [hopening] at hopening'
  cases hopening'

/-- An activity that goes on by itself takes one of the turns. -/
private theorem turn_resume {m : Machine} (h : m.Consistent) {id : ActivityId}
    {activity : Activity} (hactivity : m.activity? id = some activity)
    (hout : activity.isOutside = false) : Turn m (.resume id) (m.step (.resume id)) := by
  rw [step_resume hactivity hout]
  cases hopening : activity.opening? with
  | none =>
    obtain ⟨hquiet, hdrifts⟩ := Registry.drifts_of_continues h.orderly
      (Activity.continues_resume m.registry (fun session => !m.holds session) hout) hopening
    refine .quiet (.resume id) hquiet hdrifts (fun other o hopens => ?_)
      (fun _ _ hmove => by cases hmove) (h.fresh _ _ hactivity)
    exact not_opens hactivity hopening hopens
  | some o =>
    match activity, hopening with
    | .opening o [], rfl => exact .touches (.completes rfl hactivity)
    | .opening o (order :: left), rfl =>
      -- The next record needs the write lock of the session.
      rw [Activity.resume]
      by_cases hlock : m.holds o.session.id = true
      · rw [if_neg (by simp [hlock])]
        exact .blocked hactivity hlock
      · rw [if_pos (by simpa using hlock)]
        exact .touches (.tries rfl hactivity (by simpa using hlock))
    | .sending o order left, _ => cases hout

/-- An activity that has its reply takes one of the turns. -/
private theorem turn_answer {m : Machine} (h : m.Consistent) {id : ActivityId}
    (reply : Except Error Unit) {activity : Activity}
    (hactivity : m.activity? id = some activity) (hout : activity.isOutside = true) :
    Turn m (.answer id reply) (m.step (.answer id reply)) := by
  rw [step_answer reply hactivity hout]
  cases hopening : activity.opening? with
  | none =>
    obtain ⟨hquiet, hdrifts⟩ := Registry.drifts_of_continues h.orderly
      (Activity.continues_answer m.registry (fun _ => true) reply hout) hopening
    refine .quiet (.answer id reply) hquiet hdrifts (fun other o hopens => ?_)
      (fun other reply' hmove => ?_) (h.fresh _ _ hactivity)
    · exact not_opens hactivity hopening hopens
    · cases hmove
      rfl
  | some o =>
    match activity, hopening with
    | .opening o left, _ => cases hout
    | .sending o order left, rfl =>
      cases reply with
      | ok value => exact .touches (.sent rfl hactivity)
      | error cause => exact .touches (.fails rfl hactivity)

/-- Every regular move of a consistent machine is one of these turns. -/
theorem turn {m : Machine} (h : m.Consistent) (move : Move) (hregular : move.isRegular = true) :
    Turn m move (m.step move) := by
  cases move with
  | call operation =>
    rw [step_call]
    obtain ⟨id, hbegins, hending⟩ | ⟨hquiet, hdrifts⟩ :=
      Registry.start_cases h.orderly operation hregular
    · exact .touches (.begins hbegins hending)
    · refine .quiet (.call operation) hquiet hdrifts (fun activity o hopens => ?_)
        (fun _ _ hmove => by cases hmove) (Nat.lt_succ_self _)
      -- Under the number of a new activity nothing is entered yet.
      exact absurd (h.fresh _ _ hopens.1) (Nat.lt_irrefl _)
  | resume id =>
    by_cases hgoes : ∃ activity, m.activity? id = some activity ∧ activity.isOutside = false
    · obtain ⟨activity, hactivity, hout⟩ := hgoes
      exact turn_resume h hactivity hout
    · rw [step_resume_idle fun activity hactivity => by
        simpa using fun hout => hgoes ⟨activity, hactivity, hout⟩]
      exact .idle (fun _ hmove => by cases hmove) (fun _ _ _ hmove => by cases hmove)
  | answer id reply =>
    by_cases hgoes : ∃ activity, m.activity? id = some activity ∧ activity.isOutside = true
    · obtain ⟨activity, hactivity, hout⟩ := hgoes
      exact turn_answer h reply hactivity hout
    · have hidle : ∀ activity, m.activity? id = some activity → activity.isOutside = false :=
        fun activity hactivity => by simpa using fun hout => hgoes ⟨activity, hactivity, hout⟩
      rw [step_answer_idle reply hidle]
      refine .idle (fun _ hmove => by cases hmove) fun other reply' activity hmove hactivity => ?_
      cases hmove
      exact hidle activity hactivity

/-! ### Consistency -/

/-- A stretch changes no opening but its own. -/
theorem opens_enter_ne (m : Machine) {id other : ActivityId} (stretch : Stretch)
    (h : other ≠ id) (activity : Activity) (o : Opening) :
    (m.enter id stretch).1.Opens other activity o ↔ m.Opens other activity o := by
  unfold Opens
  rw [activity?_enter_ne m stretch h]

/-- What a stretch leaves of its own activity says whether that is an opening. -/
theorem opens_enter_self (m : Machine) (id : ActivityId) (stretch : Stretch)
    (activity : Activity) (o : Opening) :
    (m.enter id stretch).1.Opens id activity o
      ↔ stretch.2.activity? = some activity ∧ activity.opening? = some o := by
  unfold Opens
  rw [activity?_enter_self]

/-- To take a number is to begin no opening. -/
theorem opens_numbered (m : Machine) (move : Move) (id : ActivityId) (activity : Activity)
    (o : Opening) : (m.numbered move).Opens id activity o ↔ m.Opens id activity o := by
  unfold Opens
  rw [activity?_numbered]

/-- Consistency depends on the registry and on what is found in the table. -/
theorem Consistent.of_same {m m' : Machine} (h : m.Consistent)
    (hregistry : m'.registry = m.registry)
    (hactivity : ∀ id, m'.activity? id = m.activity? id)
    (hnext : m.nextActivity ≤ m'.nextActivity) : m'.Consistent := by
  have hopens : ∀ id activity o, m'.Opens id activity o ↔ m.Opens id activity o := by
    intro id activity o
    unfold Opens
    rw [hactivity]
  refine ⟨?_, fun id activity hid => ?_, fun id activity o ho => ?_,
    fun id id' activity activity' o o' ho ho' hc => ?_⟩
  · rw [hregistry]
    exact h.orderly
  · rw [hactivity] at hid
    exact Nat.lt_of_lt_of_le (h.fresh id activity hid) hnext
  · rw [hregistry]
    exact h.fits id activity o ((hopens ..).mp ho)
  · exact h.single _ _ _ _ _ _ ((hopens ..).mp ho) ((hopens ..).mp ho') hc

/-- A stretch keeps the machine consistent when the other openings go on fitting, and its own
fits and is the only one on its context. -/
theorem Consistent.enter {m : Machine} (h : m.Consistent) {id : ActivityId} {stretch : Stretch}
    (hid : id < m.nextActivity) (horderly : stretch.1.IsOrderly)
    (hothers : ∀ other activity o, other ≠ id → m.Opens other activity o →
      ∃ context, stretch.1.context? o.context = some context ∧ o.Fits context)
    (hown : ∀ activity o, stretch.2.activity? = some activity → activity.opening? = some o →
      (∃ context, stretch.1.context? o.context = some context ∧ o.Fits context) ∧
        (∃ sent, activity.IsAt o sent) ∧
        ∀ other activity' o', other ≠ id → m.Opens other activity' o' → o'.context ≠ o.context) :
    (m.enter id stretch).1.Consistent := by
  refine ⟨?_, fun other activity hother => ?_, fun other activity o ho => ?_,
    fun other other' activity activity' o o' ho ho' hc => ?_⟩
  · rw [registry_enter]
    exact horderly
  · rw [nextActivity_enter]
    by_cases hother' : other = id
    · rw [hother']
      exact hid
    · rw [activity?_enter_ne m stretch hother'] at hother
      exact h.fresh other activity hother
  · rw [registry_enter]
    by_cases hother : other = id
    · subst hother
      rw [opens_enter_self] at ho
      obtain ⟨hfits, hat, -⟩ := hown activity o ho.1 ho.2
      exact ⟨hfits, hat⟩
    · rw [opens_enter_ne m stretch hother] at ho
      exact ⟨hothers other activity o hother ho, (h.fits other activity o ho).2⟩
  · -- Two openings on one context: both are the stretch's own, or one of them is, or neither.
    by_cases hother : other = id
    · by_cases hother' : other' = id
      · rw [hother, hother']
      · subst hother
        rw [opens_enter_self] at ho
        rw [opens_enter_ne m stretch hother'] at ho'
        exact absurd hc.symm ((hown activity o ho.1 ho.2).2.2 other' activity' o' hother' ho')
    · by_cases hother' : other' = id
      · subst hother'
        rw [opens_enter_self] at ho'
        rw [opens_enter_ne m stretch hother] at ho
        exact absurd hc ((hown activity' o' ho'.1 ho'.2).2.2 other activity o hother ho)
      · rw [opens_enter_ne m stretch hother] at ho
        rw [opens_enter_ne m stretch hother'] at ho'
        exact h.single _ _ _ _ _ _ ho ho' hc

/-- To take a number keeps a machine consistent. -/
theorem Consistent.numbered {m : Machine} (h : m.Consistent) (move : Move) :
    (m.numbered move).Consistent := by
  refine h.of_same (registry_numbered m move) (activity?_numbered m move) ?_
  cases move with
  | call operation => exact Nat.le_succ _
  | _ => exact Nat.le_refl _

/-- Two openings on one context are one. -/
theorem Consistent.context_ne {m : Machine} (h : m.Consistent) {id other : ActivityId}
    {activity activity' : Activity} {o o' : Opening} (ho : m.Opens id activity o)
    (ho' : m.Opens other activity' o') (hne : other ≠ id) : o'.context ≠ o.context :=
  fun hc => hne (h.single _ _ _ _ _ _ ho' ho hc)

/-- A stretch that keeps the registry and goes on with the same opening keeps the machine
consistent. -/
private theorem Consistent.advance {m : Machine} (h : m.Consistent) {id : ActivityId}
    {activity activity' : Activity} {o : Opening} {progress : Progress}
    (ho : m.Opens id activity o) (hprogress : progress.activity? = some activity')
    (hopening : activity'.opening? = some o)
    (hat : ∀ sent, activity.IsAt o sent → ∃ sent', activity'.IsAt o sent') :
    (m.enter id (m.registry, progress)).1.Consistent := by
  refine h.enter (h.fresh id activity ho.1) h.orderly
    (fun other activity o' _ ho' => (h.fits other activity o' ho').1) ?_
  intro activity'' o' hactivity'' hopening''
  have hsame : activity' = activity'' := by
    rw [hprogress] at hactivity''
    exact Option.some.inj hactivity''
  subst hsame
  have hsame : o = o' := by
    rw [hopening] at hopening''
    exact Option.some.inj hopening''
  subst hsame
  obtain ⟨hfits, sent, hsent⟩ := h.fits id activity o ho
  exact ⟨hfits, hat sent hsent, fun other activity' o' hne ho' => h.context_ne ho ho' hne⟩

/-- A stretch that finishes an opening keeps the machine consistent if it leaves the other
contexts alone. -/
private theorem Consistent.finish {m : Machine} (h : m.Consistent) {id : ActivityId}
    {activity : Activity} {o : Opening} (ho : m.Opens id activity o) {r : Registry}
    {result : Result} (horderly : r.IsOrderly)
    (hsame : ∀ other, other ≠ o.context → r.context? other = m.registry.context? other) :
    (m.enter id (r, .returned result)).1.Consistent := by
  refine h.enter (h.fresh id activity ho.1) horderly (fun other activity' o' hne ho' => ?_)
    (fun _ _ hnone => by cases hnone)
  show ∃ context, r.context? o'.context = some context ∧ o'.Fits context
  rw [hsame o'.context (h.context_ne ho ho' hne)]
  exact (h.fits other activity' o' ho').1

/-- On a context that can answer a handshake, no opening is under way. -/
theorem Consistent.not_opens {m : Machine} (h : m.Consistent) {c : ContextId} {context : Context}
    (hcontext : m.registry.context? c = some context)
    (hphase : context.phase = .awaitingHandshake ∨ context.phase = .running)
    (id : ActivityId) (activity : Activity) (o : Opening) (ho : m.Opens id activity o) :
    o.context ≠ c := by
  rintro rfl
  obtain ⟨⟨context', hcontext', hfits⟩, -⟩ := h.fits id activity o ho
  rw [hcontext] at hcontext'
  cases hcontext'
  -- An opening under way keeps its context in flight or ended.
  obtain hphase' | hphase' := hfits.phase_cases
  · rw [hphase'] at hphase
    cases hphase <;> contradiction
  · obtain hawaiting | hrunning := hphase
    · rw [hawaiting] at hphase'
      cases hphase'
    · rw [hrunning] at hphase'
      cases hphase'

/-- A move that has to do with an opening on some context brings no ending onto any. -/
theorem Touches.ending?_eq {m : Machine} {c : ContextId} {move : Move}
    {next : Machine × Option Event} (h : m.Touches c move next) (other : ContextId) :
    m.ending? other move = none := by
  cases h with
  | begins _ hending => exact hending other
  | _ => rfl

/-- A move that has to do with an opening keeps the machine consistent. What it does to the context
of the opening still fits the opening, and no other one is under way there. -/
theorem Touches.consistent {m : Machine} (h : m.Consistent) {c : ContextId} {move : Move}
    {next : Machine × Option Event} (htouches : m.Touches c move next) : next.1.Consistent := by
  cases htouches with
  | @begins operation hbegins hending =>
    obtain ⟨context, session, hcontext, harmed, hphase, hsession, hstart⟩ := hbegins
    -- The new opening is the only one, since the phase was none of an opening under way.
    have hnone := h.not_opens hcontext hphase
    rw [hstart]
    refine (h.numbered (.call operation)).enter (Nat.lt_succ_self _)
      (h.orderly.setPhase hcontext harmed (by simp) (by simp))
      (fun other activity o hne ho => ?_) ?_
    · rw [opens_numbered] at ho
      show ∃ context, (m.registry.setPhase c .handshakeInFlight).context? o.context = _ ∧ _
      rw [Registry.context?_setPhase_ne (hnone _ _ _ ho)]
      exact (h.fits other activity o ho).1
    · intro activity o hactivity hopening
      cases hactivity
      cases hopening
      refine ⟨⟨_, Registry.context?_setPhase_self hcontext _,
        harmed.withPhase (by simp) (by simp), rfl, hsession, rfl, .inl rfl⟩,
        ⟨[], .between rfl⟩, fun other activity' o' _ ho' => ?_⟩
      rw [opens_numbered] at ho'
      exact hnone _ _ _ ho'
  | @tries id o order left hc hactivity hlock =>
    refine h.advance ⟨hactivity, rfl⟩ rfl rfl fun sent hat => ?_
    cases hat with
    | between hleft => exact ⟨sent, .trying hleft⟩
  | @sent id o order left hc hactivity =>
    refine h.advance ⟨hactivity, rfl⟩ rfl rfl fun sent hat => ?_
    cases hat with
    | trying hleft =>
      refine ⟨sent ++ [order], .between ?_⟩
      rw [hleft, List.append_assoc]
      rfl
  | @fails id o order left cause hc hactivity =>
    obtain ⟨⟨context, hcontext, hfits⟩, -⟩ := h.fits id _ o ⟨hactivity, rfl⟩
    rw [Registry.failOpening, hfits.guarded_eq, if_pos rfl]
    refine h.finish ⟨hactivity, rfl⟩ (h.orderly.setPhase hcontext hfits.isArmed
      (by simp [Phase.failed]) (by simp [Phase.failed])) fun other hother => ?_
    exact Registry.context?_setPhase_ne hother _
  | @completes id o hc hactivity =>
    obtain ⟨⟨context, hcontext, hfits⟩, -⟩ := h.fits id _ o ⟨hactivity, rfl⟩
    obtain ⟨-, hcomplete⟩ | ⟨-, hcomplete⟩ :=
      Registry.completeOpening_cases hcontext hfits
    · rw [hcomplete]
      exact h.finish ⟨hactivity, rfl⟩
        (h.orderly.setPhase hcontext hfits.isArmed (by simp) (by simp))
        fun other hother => Registry.context?_setPhase_ne hother _
    · rw [hcomplete]
      exact h.finish ⟨hactivity, rfl⟩ h.orderly fun _ _ => rfl

/-- A regular move keeps a machine consistent. -/
theorem consistent_step {m : Machine} (h : m.Consistent) {move : Move}
    (hregular : move.isRegular = true) : (m.step move).1.Consistent := by
  have hturn := turn h move hregular
  generalize m.step move = next at hturn
  cases hturn with
  | idle => exact h
  | @blocked id o order left hactivity hlock =>
    -- The opening is entered again as it was.
    refine h.of_same (registry_enter ..) (fun other => ?_) (Nat.le_refl _)
    rw [activity?_enter]
    by_cases hother : other = id
    · rw [if_pos hother, hother, hactivity]
      rfl
    · rw [if_neg hother]
  | @quiet _ id stretch hquiet hdrifts hopens _ hid =>
    -- The stretch has no opening, and those of the others fit their contexts after a drift too.
    refine (h.numbered move).enter hid (.of_drifts hdrifts) (fun other activity o _ ho => ?_) ?_
    · rw [opens_numbered] at ho
      obtain ⟨⟨context, hcontext, hfits⟩, -⟩ := h.fits other activity o ho
      have hdrift := hdrifts o.context
      rw [hcontext] at hdrift
      exact hfits.drift hdrift
    · intro activity o hactivity hopening
      have hnone := hquiet.opening?_eq
      rw [hactivity, Option.bind_some, hopening] at hnone
      cases hnone
  | touches htouches => exact htouches.consistent h

/-- Regular runs keep a machine consistent. -/
theorem consistent_run {m : Machine} (h : m.Consistent) (moves : List Move)
    (hregular : ∀ move ∈ moves, move.isRegular = true) : (m.run moves).1.Consistent :=
  run_induction h fun _ hm move hmove => consistent_step hm (hregular move hmove)

/-- A new connection is consistent, for nothing is there yet. -/
theorem consistent_ofRegistry (available : List String) :
    (ofRegistry { available }).Consistent where
  orderly id context h := by cases h
  fresh id activity h := by cases h
  fits id activity o h := by cases h.1
  single id id' activity activity' o o' h := by cases h.1

/-! ### What a move means for one context -/

/-- A move that has nothing to do with an opening on the context: at most it ends the context. -/
structure Passes (m : Machine) (c : ContextId) (move : Move) (next : Machine × Option Event) :
    Prop where
  drift : Drift (m.ending? c move) (m.registry.context? c) (next.1.registry.context? c)
  opens_iff : ∀ id activity o, o.context = c →
    (next.1.Opens id activity o ↔ m.Opens id activity o)
  not_send : ∀ id transport order, next.2 ≠ some (.contact id (.send c transport order))
  not_returned : ∀ id activity o result, o.context = c → m.Opens id activity o →
    next.2 ≠ some (.returned id result)
  not_answered : ∀ id reply activity o, o.context = c → m.Opens id activity o →
    activity.isOutside = true → move ≠ .answer id reply

/-- On a consistent machine a context that stays as it is drifts. -/
theorem Consistent.drift_same {m : Machine} (h : m.Consistent) (c : ContextId) :
    Drift none (m.registry.context? c) (m.registry.context? c) :=
  Registry.Drifts.of_eq h.orderly (fun _ => rfl) c

/-- A stretch of another activity passes if it sends nothing for the context. -/
private theorem Passes.of_enter {m : Machine} {c : ContextId} (move : Move) {id : ActivityId}
    {stretch : Stretch}
    (hdrift : Drift (m.ending? c move) (m.registry.context? c) (stretch.1.context? c))
    (hbefore : ∀ activity o, m.Opens id activity o → o.context ≠ c)
    (hafter : ∀ activity o, stretch.2.activity? = some activity → activity.opening? = some o →
      o.context ≠ c)
    (hsend : ∀ other transport order,
      stretch.2.event? id ≠ some (.contact other (.send c transport order)))
    (hmove : ∀ other reply, move = .answer other reply → other = id) :
    m.Passes c move ((m.numbered move).enter id stretch) := by
  refine ⟨?_, fun other activity o hc => ?_, fun other transport order hevent => ?_,
    fun other activity o result hc ho hevent => ?_, fun other reply activity o hc ho _ heq => ?_⟩
  · rw [registry_enter]
    exact hdrift
  · -- The activity itself has no opening on the context, neither before nor after.
    by_cases hother : other = id
    · subst hother
      rw [opens_enter_self]
      exact ⟨fun ho => absurd hc (hafter activity o ho.1 ho.2),
        fun ho => absurd hc (hbefore activity o ho)⟩
    · rw [opens_enter_ne _ stretch hother, opens_numbered]
  · rw [event_enter] at hevent
    exact hsend other transport order hevent
  · rw [event_enter] at hevent
    obtain ⟨rfl, -⟩ := Progress.of_event?_returned hevent
    exact hbefore activity o ho hc
  · cases hmove other reply heq
    exact hbefore activity o ho hc

/-- What carries the opening of one context on passes every other context. -/
private theorem Touches.passes {m : Machine} (h : m.Consistent) {c c' : ContextId} {move : Move}
    {next : Machine × Option Event} (htouches : m.Touches c' move next) (hne : c' ≠ c) :
    m.Passes c move next := by
  -- The activity that moves has an opening on the one context, so none on the other.
  have hown : ∀ {id activity o}, o.context = c' → m.Opens id activity o →
      ∀ activity' o', m.Opens id activity' o' → o'.context ≠ c := by
    intro id activity o hc ho activity' o' ho' hc'
    rw [Opens, ho.1] at ho'
    cases ho'.1
    rw [ho.2] at ho'
    cases ho'.2
    exact hne (hc.symm.trans hc')
  cases htouches with
  | @begins operation hbegins hending =>
    obtain ⟨context, session, hcontext, harmed, hphase, hsession, hstart⟩ := hbegins
    rw [hstart]
    refine .of_enter (.call operation) ?_ (fun activity o ho => ?_)
      (fun activity o hactivity hopening => ?_) (fun _ _ _ hevent => by cases hevent)
      (fun _ _ hmove => by cases hmove)
    · show Drift (m.registry.ending? c operation) _ ((m.registry.setPhase c' _).context? c)
      rw [hending, Registry.context?_setPhase_ne (Ne.symm hne)]
      exact h.drift_same c
    · exact absurd (h.fresh _ _ ho.1) (Nat.lt_irrefl _)
    · cases hactivity
      cases hopening
      exact hne
  | @tries id o order left hc hactivity hlock =>
    refine .of_enter (.resume id) (h.drift_same c) (hown hc ⟨hactivity, rfl⟩)
      (fun activity' o' hactivity' hopening' => ?_) (fun other transport order hevent => ?_)
      (fun _ _ hmove => by cases hmove)
    · cases hactivity'
      cases hopening'
      rw [hc]
      exact hne
    · cases hevent
      exact hne hc.symm
  | @sent id o order left hc hactivity =>
    refine .of_enter (.answer id (.ok ())) (h.drift_same c) (hown hc ⟨hactivity, rfl⟩)
      (fun activity' o' hactivity' hopening' => ?_) (fun _ _ _ hevent => by cases hevent)
      (fun _ _ hmove => by cases hmove; rfl)
    cases hactivity'
    cases hopening'
    rw [hc]
    exact hne
  | @fails id o order left cause hc hactivity =>
    refine .of_enter (.answer id (.error cause)) ?_ (hown hc ⟨hactivity, rfl⟩)
      (fun _ _ hnone => by cases hnone) (fun _ _ _ hevent => by cases hevent)
      (fun _ _ hmove => by cases hmove; rfl)
    obtain ⟨⟨context, hcontext, hfits⟩, -⟩ := h.fits id _ o ⟨hactivity, rfl⟩
    rw [Registry.failOpening, hfits.guarded_eq, if_pos rfl]
    show Drift none _ ((m.registry.setPhase o.context .failed).context? c)
    rw [Registry.context?_setPhase_ne fun hc' => hne (hc.symm.trans hc'.symm)]
    exact h.drift_same c
  | @completes id o hc hactivity =>
    obtain ⟨⟨context, hcontext, hfits⟩, -⟩ := h.fits id _ o ⟨hactivity, rfl⟩
    -- Completed or overtaken, the opening returns and leaves the other context alone.
    have hpasses : ∀ {r : Registry} {result : Result}, r.context? c = m.registry.context? c →
        m.Passes c (.resume id) (m.enter id (r, .returned result)) := by
      intro r result hsame
      refine .of_enter (.resume id) ?_ (hown hc ⟨hactivity, rfl⟩)
        (fun _ _ hnone => by cases hnone) (fun _ _ _ hevent => by cases hevent)
        (fun _ _ hmove => by cases hmove)
      show Drift none _ (r.context? c)
      rw [hsame]
      exact h.drift_same c
    obtain ⟨-, hcomplete⟩ | ⟨-, hcomplete⟩ := Registry.completeOpening_cases hcontext hfits
    · rw [hcomplete]
      exact hpasses (Registry.context?_setPhase_ne (fun hc' => hne (hc.symm.trans hc'.symm)) _)
    · rw [hcomplete]
      exact hpasses rfl

/-- To one context a regular move of a consistent machine does one of two things: it carries the
context's opening on, or it lets that opening be and at most ends the context. -/
theorem passes_or_touches {m : Machine} (h : m.Consistent) {move : Move}
    (hregular : move.isRegular = true) (c : ContextId) :
    m.Passes c move (m.step move) ∨ m.Touches c move (m.step move) := by
  have hturn := turn h move hregular
  generalize m.step move = next at hturn
  cases hturn with
  | idle hcall hanswer =>
    have hending : m.ending? c move = none := by
      cases move with
      | call operation => exact absurd rfl (hcall operation)
      | _ => rfl
    refine .inl ⟨?_, fun _ _ _ _ => .rfl, fun _ _ _ => by simp, fun _ _ _ _ _ _ => by simp,
      fun id reply activity o _ ho hout heq => ?_⟩
    · rw [hending]
      exact h.drift_same c
    · rw [hanswer id reply activity heq ho.1] at hout
      cases hout
  | @blocked id o order left hactivity hlock =>
    refine .inl ⟨?_, fun other activity o' _ => ?_, fun _ _ _ => by simp [Progress.event?],
      fun _ _ _ _ _ _ => by simp [Progress.event?], fun _ _ _ _ _ _ _ => by simp⟩
    · rw [registry_enter]
      exact h.drift_same c
    · by_cases hother : other = id
      · subst hother
        rw [opens_enter_self, Opens, hactivity]
        rfl
      · rw [opens_enter_ne _ _ hother]
  | @quiet _ id stretch hquiet hdrifts hopens hmove hid =>
    refine .inl (.of_enter move (hdrifts c) (fun activity o ho => absurd ho (hopens activity o))
      (fun activity o hactivity hopening => ?_) (fun other transport order hevent => ?_) hmove)
    · have hnone := hquiet.opening?_eq
      rw [hactivity, Option.bind_some, hopening] at hnone
      cases hnone
    · cases hprogress : stretch.2 with
      | waits contact activity =>
        rw [hprogress] at hevent
        cases hevent
        exact hquiet.not_send id c transport order (by rw [hprogress]; rfl)
      | _ =>
        rw [hprogress] at hevent
        cases hevent
  | @touches c' _ _ htouches =>
    -- The context that the move is about, or another one.
    by_cases hc : c' = c
    · subst hc
      exact .inr htouches
    · exact .inl (htouches.passes h hc)

/-- A record is sent for the context of the opening that sends it. -/
theorem opens_of_send {m : Machine} (h : m.Consistent) {move : Move}
    (hregular : move.isRegular = true) {id : ActivityId} {c : ContextId} {transport : TransportId}
    {order : ClientOrder}
    (hevent : (m.step move).2 = some (.contact id (.send c transport order))) :
    ∃ activity o, m.Opens id activity o ∧ o.context = c := by
  obtain hpasses | htouches := passes_or_touches h hregular c
  · exact absurd hevent (hpasses.not_send id transport order)
  · -- Of all that can touch the context only an attempt asks a transport.
    generalize m.step move = next at hevent htouches
    cases htouches with
    | begins hbegins =>
      obtain ⟨context, session, -, -, -, -, hstart⟩ := hbegins
      rw [hstart] at hevent
      cases hevent
    | tries hc hactivity hlock =>
      cases hevent
      exact ⟨_, _, ⟨hactivity, rfl⟩, hc⟩
    | sent hc hactivity => cases hevent
    | fails hc hactivity => cases hevent
    | @completes id' o hc hactivity =>
      obtain ⟨⟨context, hcontext, hfits⟩, -⟩ := h.fits id' _ o ⟨hactivity, rfl⟩
      obtain ⟨-, hcomplete⟩ | ⟨-, hcomplete⟩ := Registry.completeOpening_cases hcontext hfits
      · rw [hcomplete] at hevent
        cases hevent
      · rw [hcomplete] at hevent
        cases hevent

end Machine

end RemotePrograms
