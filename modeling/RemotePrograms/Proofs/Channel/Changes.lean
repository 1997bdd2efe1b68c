import RemotePrograms.Proofs.Channel.Continues
import RemotePrograms.Proofs.Channel.Regular
import RemotePrograms.Proofs.Channel.Starts

/-!
# `RemotePrograms.Proofs.Channel.Changes`: what any move can do to a context

Much of the theory keeps to moves that leave handlers, sessions or phases to the library. Some facts
do not need that, for there are few ways in which a context can change at all. `Context.Changes`
lists them, and `changes_step` says that every move of every machine changes each context in one of
them.

So a context keeps its name (`Changes.name_eq`), whatever is done to it. And unless somebody puts it
into a phase, what has ended stays so (`Changes.lasts`), which is the law of the table of
transitions, `Phase.lasts_step`, carried over to the channels.
-/

set_option autoImplicit false

namespace RemotePrograms

/-- Whether a call puts a context into a phase without regard to the one that it is in. -/
def ContextCall.puts : ContextCall → Bool
  | .put _ => true
  | _ => false

/-- Whether an operation does so. -/
def Operation.puts : Operation → Bool
  | .call _ request => request.puts
  | _ => false

/-- Whether a move begins such an operation. -/
def Move.puts : Move → Bool
  | .call operation => operation.puts
  | _ => false

/-! ### Phases -/

/-- No transition undoes an ending. -/
theorem Phase.lasts_step {transition : Transition} {phase phase' : Phase}
    (h : phase.step transition = .ok phase') : phase.Lasts phase' := by
  cases transition with
  | fail =>
    cases h
    exact .toFailed phase
  | close =>
    cases h
    exact .close phase
  | _ =>
    -- The others start from a phase that has not ended.
    cases phase with
    | terminated ending => cases h
    | _ => exact .of_going rfl _

/-- A phase from which a context can go on to waiting has not ended. -/
theorem Context.isTerminated_of_awaitingPhase {phase phase' : Phase}
    (h : Context.awaitingPhase phase = .ok phase') : phase.isTerminated = false := by
  cases phase with
  | terminated ending => cases h
  | _ => rfl

/-! ### One context -/

namespace Context

/-- What a stretch can do to a context. Only some stretches may put it into any phase they like. -/
inductive Changes (puts : Bool) (context : Context) : Context → Prop where
  | same : Changes puts context context
  | attached (session : Session) : Changes puts context { context with session := some session }
  | installed {handler : Handler} {context' : Context} :
      context.install handler = .ok context' → Changes puts context context'
  | told (session : Session) : Changes puts context (context.arm session)
  | moved (transition : Transition) {phase : Phase} :
      context.phase.step transition = .ok phase → Changes puts context { context with phase }
  | put (phase : Phase) : puts = true → Changes puts context { context with phase }

variable {puts : Bool} {context context' : Context}

/-- What a handler that was set leaves of a context. -/
theorem exists_of_install {handler : Handler} (h : context.install handler = .ok context') :
    ∃ phase, awaitingPhase context.phase = .ok phase ∧
      context' = { context with phase, handler := some handler } := by
  unfold install at h
  cases hphase : awaitingPhase context.phase with
  | error cause =>
    rw [hphase] at h
    cases h
  | ok phase =>
    rw [hphase] at h
    cases h
    exact ⟨phase, rfl, rfl⟩

/-- Arming is the setting of a handler followed by that of a session, or nothing. -/
theorem arm_cases_install (session : Session) (context : Context) :
    context.arm session = context ∨ ∃ installed, context.install .remotePrograms = .ok installed ∧
      context.arm session = { installed with session := some session } := by
  unfold arm
  split
  · cases hinstall : context.install .remotePrograms with
    | ok installed => exact .inr ⟨installed, rfl, rfl⟩
    | error cause => exact .inl rfl
  · exact .inl rfl

/-- A context keeps its name. -/
theorem Changes.name_eq (h : context.Changes puts context') : context'.name = context.name := by
  cases h with
  | installed hinstall =>
    obtain ⟨phase, -, rfl⟩ := exists_of_install hinstall
    rfl
  | told session =>
    obtain harm | ⟨installed, hinstall, harm⟩ := arm_cases_install session context
    · rw [harm]
    · obtain ⟨phase, -, rfl⟩ := exists_of_install hinstall
      rw [harm]
  | _ => rfl

/-- What has ended stays so, and a failure stays a failure. -/
theorem Changes.lasts (h : context.Changes false context') :
    context.phase.Lasts context'.phase := by
  have hinstalled : ∀ {handler : Handler} {installed : Context},
      context.install handler = .ok installed → context.phase.Lasts installed.phase := by
    intro handler installed hinstall
    obtain ⟨phase, hphase, rfl⟩ := exists_of_install hinstall
    exact .of_going (isTerminated_of_awaitingPhase hphase) phase
  cases h with
  | same => exact .refl _
  | attached session => exact .refl _
  | installed hinstall => exact hinstalled hinstall
  | told session =>
    obtain harm | ⟨installed, hinstall, harm⟩ := arm_cases_install session context
    · rw [harm]
      exact .refl _
    · have hlasts := hinstalled hinstall
      rw [harm]
      exact hlasts
  | moved transition hstep => exact Phase.lasts_step hstep
  | put phase hputs => cases hputs

end Context

/-! ### All contexts -/

namespace Registry

/-- No context is lost, and each one changes as a stretch can change it. -/
def Changes (puts : Bool) (r r' : Registry) : Prop :=
  ∀ c context, r.context? c = some context →
    ∃ context', r'.context? c = some context' ∧ context.Changes puts context'

variable {puts : Bool} {r r' : Registry}

/-- If no context changes, each of them changes as a stretch can. -/
theorem Changes.of_eq (h : ∀ c, r'.context? c = r.context? c) : r.Changes puts r' := by
  intro c context hcontext
  exact ⟨context, (h c).trans hcontext, .same⟩

/-- A registry that stays as it is changes as a stretch can. -/
theorem Changes.refl (r : Registry) : r.Changes puts r := .of_eq fun _ => rfl

/-- A new context leaves those that exist as they are. -/
theorem Changes.of_create (context : Context) : r.Changes puts (r.create context) := by
  intro c old hold
  refine ⟨old, ?_, .same⟩
  have hne : c ≠ r.nextContext := by
    rintro rfl
    rw [context?_nextContext] at hold
    cases hold
  rw [context?_create, if_neg hne]
  exact hold

/-- If one context changes as a stretch can, the registry does. -/
theorem Changes.of_update {id : ContextId} {f : Context → Context}
    (h : ∀ context, r.context? id = some context → context.Changes puts (f context)) :
    r.Changes puts (r.update id f) := by
  intro c context hcontext
  rw [context?_update]
  by_cases hc : c = id
  · subst hc
    rw [if_pos rfl, hcontext]
    exact ⟨f context, rfl, h context hcontext⟩
  · rw [if_neg hc]
    exact ⟨context, hcontext, .same⟩

/-- A context takes a phase that it can go on to. -/
theorem Changes.of_transition {id : ContextId} {context : Context}
    (hcontext : r.context? id = some context) (transition : Transition) {phase : Phase}
    (hstep : context.phase.step transition = .ok phase) :
    r.Changes puts (r.setPhase id phase) := by
  refine .of_update fun other hother => ?_
  rw [hcontext] at hother
  cases hother
  exact .moved transition hstep

/-- Any context may fail. -/
theorem Changes.of_fail (id : ContextId) : r.Changes puts (r.setPhase id .failed) :=
  .of_update fun _ _ => .moved .fail rfl

/-- An opening that fails lets its context fail, or it changes nothing. -/
theorem changes_failOpening (id : ContextId) (guarded : Bool) (cause : Error) :
    r.Changes puts (r.failOpening id guarded cause).1 := by
  cases guarded with
  | true => exact .of_fail id
  | false => exact .refl r

/-- The end of an opening moves the phase of its context on, or it changes nothing. -/
theorem changes_completeOpening (o : Opening) : r.Changes puts (r.completeOpening o).1 := by
  unfold completeOpening
  split
  · split
    · exact .refl r
    · rename_i context hcontext
      split
      · rename_i phase hphase
        exact .of_transition hcontext .completeHandshake hphase
      · exact .refl r
  · exact .refl r

/-- What a call does to the contexts. -/
theorem changes_call {id : ContextId} {context : Context}
    (hcontext : r.context? id = some context) (request : ContextCall) :
    r.Changes request.puts (r.call id context request).1 := by
  have hstarts := request.starts r id context
  generalize r.call id context request = stretch at hstarts ⊢
  cases hstarts with
  | returns | sends | hands => exact .refl r
  | attaches => exact .of_update fun _ _ => .attached _
  | installs hinstall =>
    refine .of_update fun other hother => ?_
    rw [hcontext] at hother
    cases hother
    exact .installed hinstall
  | arms => exact .of_update fun _ _ => .told _
  | moves _ hstep => exact .of_transition hcontext _ hstep
  | puts => exact .of_update fun _ _ => .put _ rfl
  | opens hstep => exact .of_transition hcontext _ hstep
  | aborts => exact .of_fail id

/-- What the first stretch of an operation does to the contexts. -/
theorem changes_start (r : Registry) (operation : Operation) :
    r.Changes operation.puts (operation.start r).1 := by
  have hstarts := operation.starts r
  generalize operation.start r = stretch at hstarts ⊢
  cases hstarts with
  | returns => exact .refl r
  | loads hload => exact .of_eq (context?_load hload)
  | @registers _ loaded hload =>
    exact .of_eq fun c => (context?_subscribe loaded _ c).trans (context?_load hload c)
  | subscribes => exact .of_eq fun _ => rfl
  | connects => exact .of_create _
  | creates => exact .of_create _
  -- The context that the name stood for is closed, and all others stay.
  | @closes name r' hdisconnect =>
    intro c context hcontext
    show ∃ context', r'.context? c = some context' ∧ _
    rw [context?_disconnect hdisconnect, hcontext]
    split
    · exact ⟨_, rfl, .moved .close rfl⟩
    · exact ⟨_, rfl, .same⟩
  | handles _ hcontext => exact changes_call hcontext (.dispatch _)
  | calls hcontext => exact changes_call hcontext _
  | misses => exact .refl r
  | aborts => exact .refl r
  | locks => exact .refl r

/-- What a later stretch does to them. -/
theorem Changes.of_continues {free : SessionId → Bool} {activity : Activity} {stretch : Stretch}
    (h : activity.Continues free r stretch) : r.Changes puts stretch.1 := by
  cases h with
  | completes => exact changes_completeOpening _
  | fails => exact changes_failOpening _ _ _
  | publishes => exact .of_eq fun _ => rfl
  | arms => exact .of_update fun _ _ => .told _
  | _ => exact .refl r

end Registry

/-! ### Moves and runs -/

namespace Machine

variable {m : Machine}

/-- What a move does to the contexts. -/
theorem changes_step (m : Machine) (move : Move) :
    m.registry.Changes move.puts (m.step move).1.registry := by
  have hsteps := m.registry_step move
  generalize (m.step move).1.registry = r' at hsteps ⊢
  cases hsteps with
  | idle => exact .refl _
  | call operation => exact Registry.changes_start m.registry operation
  | continues _ hcontinues => exact .of_continues hcontinues

/-- In a run in which nobody puts a context into a phase, what has ended stays so. -/
theorem context?_run {c : ContextId} {context : Context}
    (hcontext : m.registry.context? c = some context) (moves : List Move)
    (hputs : ∀ move ∈ moves, move.puts = false) :
    ∃ context', (m.run moves).1.registry.context? c = some context' ∧
      context'.name = context.name ∧ context.phase.Lasts context'.phase := by
  refine run_induction (P := fun m => ∃ context', m.registry.context? c = some context' ∧
    context'.name = context.name ∧ context.phase.Lasts context'.phase)
    ⟨context, hcontext, rfl, .refl _⟩ fun m hm move hmove => ?_
  -- Each move changes the context as a stretch can.
  obtain ⟨before, hbefore, hname, hlasts⟩ := hm
  obtain ⟨next, hnext, hchanges⟩ := changes_step m move c before hbefore
  rw [hputs move hmove] at hchanges
  exact ⟨next, hnext, hchanges.name_eq.trans hname, hlasts.trans hchanges.lasts⟩

end Machine

end RemotePrograms
