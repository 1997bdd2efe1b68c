import RemotePrograms.Proofs.Channel.Continues
import RemotePrograms.Proofs.Channel.Regular
import RemotePrograms.Proofs.Channel.Starts

/-!
# `RemotePrograms.Proofs.Channel.Arming`: who gets a context

A context works for the session that it was armed for. Arming sets the handler and the session in
one go and moves the phase on, and only a context in a fresh phase can be armed
(`Context.arm_cases`). As no other stretch leads back to a fresh phase, a context is armed once, and
whoever comes later gets nothing.

The moves that are considered here are more than the regular ones. Phases may be moved by anybody,
records sent, reports handed in. `Move.leavesArming` only leaves out what sets a handler or a
session by another way, and what puts a phase back as if the context had not been armed. `Evolves`
says what a stretch does to one context, and `armings` collects the sessions that a run arms a
context for.
-/

set_option autoImplicit false

namespace RemotePrograms

/-! ### Moves that leave arming to the library -/

/-- Whether a context in this phase can be armed. -/
def Phase.isFresh : Phase → Bool
  | disconnected | channelConnected => true
  | _ => false

/-- Whether a call sets no handler and no session, unless it arms the context, and does not make
the phase look fresh. -/
def ContextCall.leavesArming : ContextCall → Bool
  | .attach _ | .install _ => false
  | .put phase => !phase.isFresh
  | _ => true

/-- Whether an operation leaves it to `Context.arm` to set a handler and a session. -/
def Operation.leavesArming : Operation → Bool
  | .call _ request => request.leavesArming
  | _ => true

/-- Whether a move calls only such operations. -/
def Move.leavesArming : Move → Bool
  | .call operation => operation.leavesArming
  | _ => true

/-! ### One context -/

namespace Context

/-- A context that can be armed: it has the right name, and its phase is fresh. -/
def CanArm (context : Context) : Prop :=
  context.name = remoteProgramsChannel ∧ context.phase.isFresh = true

instance (context : Context) : Decidable context.CanArm :=
  inferInstanceAs (Decidable (_ ∧ _))

/-- The context once it is armed. -/
def armed (session : Session) (context : Context) : Context :=
  { context with
    session := some session
    handler := some .remotePrograms
    phase := .awaitingHandshake }

/-- Handler and session are both there or both missing. With them the phase is not fresh. -/
inductive IsCoupled (context : Context) : Prop where
  | bare : context.handler = none → context.session = none → IsCoupled context
  | armed {session : Session} : context.handler = some .remotePrograms →
      context.session = some session → context.phase.isFresh = false → IsCoupled context

/-- Arming does all or nothing. -/
theorem arm_cases (session : Session) (context : Context) :
    (context.CanArm ∧ context.arm session = context.armed session) ∨
      (¬ context.CanArm ∧ context.arm session = context) := by
  by_cases hname : context.name = remoteProgramsChannel
  · cases hphase : context.phase with
    | disconnected =>
      refine .inl ⟨⟨hname, by rw [hphase]; rfl⟩, ?_⟩
      simp only [arm, hname, if_true, install, hphase, awaitingPhase, Except.map, armed]
    | channelConnected =>
      refine .inl ⟨⟨hname, by rw [hphase]; rfl⟩, ?_⟩
      simp only [arm, hname, if_true, install, hphase, awaitingPhase, Phase.awaitHandshake,
        Except.map, armed]
    | _ =>
      -- The phase does not go on to waiting, so no handler is set and no session.
      refine .inr ⟨fun hcan => ?_, ?_⟩
      · have hfresh := hcan.2
        rw [hphase] at hfresh
        cases hfresh
      · simp only [arm, hname, if_true, install, hphase, awaitingPhase, Phase.awaitHandshake,
          Except.map]
  · exact .inr ⟨fun hcan => hname hcan.1, if_neg hname⟩

/-- A context that can be armed gets handler, session and phase in one go. -/
theorem arm_of_canArm {session : Session} {context : Context} (h : context.CanArm) :
    context.arm session = context.armed session := by
  rcases arm_cases session context with ⟨-, harm⟩ | ⟨hcan, -⟩
  · exact harm
  · exact absurd h hcan

/-- A context that cannot be armed stays as it is. -/
theorem arm_of_not_canArm {session : Session} {context : Context} (h : ¬ context.CanArm) :
    context.arm session = context := by
  rcases arm_cases session context with ⟨hcan, -⟩ | ⟨-, harm⟩
  · exact absurd hcan h
  · exact harm

namespace IsCoupled

variable {context : Context}

/-- A context that can be armed has neither a handler nor a session. -/
theorem bare_of_canArm (h : context.IsCoupled) (hcan : context.CanArm) :
    context.handler = none ∧ context.session = none := by
  cases h with
  | bare hhandler hsession => exact ⟨hhandler, hsession⟩
  | armed _ _ hphase =>
    have hfresh := hcan.2
    rw [hphase] at hfresh
    cases hfresh

/-- A context has a handler exactly if it has a session. -/
theorem isSome_iff (h : context.IsCoupled) : context.handler.isSome ↔ context.session.isSome := by
  cases h with
  | bare hhandler hsession => simp [hhandler, hsession]
  | armed hhandler hsession _ => simp [hhandler, hsession]

/-- A context with a handler is not fresh any more. -/
theorem isFresh_eq_false (h : context.IsCoupled) (hhandler : context.handler.isSome) :
    context.phase.isFresh = false := by
  cases h with
  | bare hnone _ =>
    rw [hnone] at hhandler
    cases hhandler
  | armed _ _ hphase => exact hphase

/-- A context with a session is handled as a channel for remote programs. -/
theorem handler_eq (h : context.IsCoupled) {session : Session}
    (hsession : context.session = some session) : context.handler = some .remotePrograms := by
  cases h with
  | bare _ hnone =>
    rw [hnone] at hsession
    cases hsession
  | armed hhandler _ _ => exact hhandler

/-- Handler and session stay together when the phase moves on, for it does not become fresh. -/
theorem withPhase (h : context.IsCoupled) {phase : Phase}
    (hphase : phase.isFresh = true → context.phase.isFresh = true) :
    { context with phase }.IsCoupled := by
  cases h with
  | bare hhandler hsession => exact .bare hhandler hsession
  | armed hhandler hsession hold =>
    refine .armed hhandler hsession ?_
    show phase.isFresh = false
    cases hfresh : phase.isFresh with
    | false => rfl
    | true =>
      rw [hphase hfresh] at hold
      cases hold

/-- Arming keeps handler and session together, whether it succeeds or not. -/
theorem arm (h : context.IsCoupled) (session : Session) : (context.arm session).IsCoupled := by
  rcases arm_cases session context with ⟨-, harm⟩ | ⟨-, harm⟩
  · rw [harm]
    exact .armed rfl rfl rfl
  · rw [harm]
    exact h

end IsCoupled

end Context

/-! ### One stretch -/

/-- What a stretch does to one context. It is told of its connection on behalf of a session, or it
is made, or all that changes is the phase, and that does not become fresh again. -/
inductive Evolves : Option Session → Option Context → Option Context → Prop where
  | absent {told : Option Session} : Evolves told none none
  | made {context : Context} : context.handler = none → context.session = none →
      Evolves none none (some context)
  | moved {context : Context} {phase : Phase} :
      (phase.isFresh = true → context.phase.isFresh = true) →
      Evolves none (some context) (some { context with phase })
  | told {session : Session} {context : Context} :
      Evolves (some session) (some context) (some (context.arm session))

/-- A context that stays as it is evolves without being told anything. -/
theorem Evolves.same (context : Option Context) : Evolves none context context := by
  cases context with
  | none => exact .absent
  | some context => exact @Evolves.moved context context.phase id

/-- The session on whose behalf an operation tells a context of its connection. -/
def Operation.told? (c : ContextId) : Operation → Option Session
  | .call target (.arm session) => if target = c then some session else none
  | _ => none

/-- The session on whose behalf an activity is about to do so. -/
def Activity.told? (c : ContextId) : Activity → Option Session
  | .notifying _ target (.remotePrograms session :: _) => if target = c then some session else none
  | _ => none

/-- The only operation that tells a context of its connection is the call to arm it. -/
theorem Operation.eq_of_told? {c : ContextId} {operation : Operation} {session : Session}
    (h : operation.told? c = some session) : operation = .call c (.arm session) := by
  unfold told? at h
  split at h
  · rcases Option.ite_none_right_eq_some.mp h with ⟨rfl, hsession⟩
    cases hsession
    rfl
  · cases h

/-- The only activity that is about to tell a context is a connecting with a session next on its
list. -/
theorem Activity.eq_of_told? {c : ContextId} {activity : Activity} {session : Session}
    (h : activity.told? c = some session) :
    ∃ name left, activity = .notifying name c (.remotePrograms session :: left) := by
  unfold told? at h
  split at h
  · rcases Option.ite_none_right_eq_some.mp h with ⟨rfl, hsession⟩
    cases hsession
    exact ⟨_, _, rfl⟩
  · cases h

/-- An activity that waits for the outside tells nobody. -/
theorem Activity.told?_of_isOutside (c : ContextId) {activity : Activity}
    (h : activity.isOutside = true) : activity.told? c = none := by
  cases activity with
  | notifying => cases h
  | _ => rfl

namespace Registry

/-- Every context evolves. -/
def Evolves (r r' : Registry) (told : ContextId → Option Session) : Prop :=
  ∀ c, RemotePrograms.Evolves (told c) (r.context? c) (r'.context? c)

variable {r r' : Registry}

/-- If no context changes, all of them evolve and nobody is told. -/
theorem Evolves.of_eq (h : ∀ c, r'.context? c = r.context? c) : r.Evolves r' fun _ => none := by
  intro c
  rw [h]
  exact .same _

/-- A registry that stays as it is evolves. -/
theorem Evolves.refl (r : Registry) : r.Evolves r fun _ => none := .of_eq fun _ => rfl

/-- A new context evolves from nothing if it comes without handler and session. -/
theorem Evolves.of_create {context : Context} (hhandler : context.handler = none)
    (hsession : context.session = none) : r.Evolves (r.create context) fun _ => none := by
  intro c
  rw [context?_create]
  by_cases hc : c = r.nextContext
  · rw [if_pos hc, hc, context?_nextContext]
    exact .made hhandler hsession
  · rw [if_neg hc]
    exact .same _

/-- Only the phase of one context changes. -/
theorem Evolves.of_phase {target : ContextId} {f : Phase → Phase}
    (h : ∀ context, r.context? target = some context →
      (f context.phase).isFresh = true → context.phase.isFresh = true) :
    r.Evolves (r.update target fun context => { context with phase := f context.phase })
      fun _ => none := by
  intro c
  rw [context?_update]
  by_cases hc : c = target
  · rw [if_pos hc, hc]
    cases hcontext : r.context? target with
    | none => exact .absent
    | some context => exact .moved (h context hcontext)
  · rw [if_neg hc]
    exact .same _

/-- A context evolves when it is put into a phase that is not fresh. -/
theorem Evolves.of_setPhase (target : ContextId) {phase : Phase} (h : phase.isFresh = false) :
    r.Evolves (r.setPhase target phase) fun _ => none := by
  refine .of_phase (f := fun _ => phase) fun _ _ hfresh => ?_
  rw [h] at hfresh
  cases hfresh

/-- A context that is told evolves by arming, and the others stay as they are. -/
theorem Evolves.of_arm (target : ContextId) (session : Session) :
    r.Evolves (r.update target (Context.arm session))
      fun c => if target = c then some session else none := by
  intro c
  show RemotePrograms.Evolves (if target = c then some session else none) _ _
  rw [context?_update]
  by_cases hc : target = c
  · rw [if_pos hc, if_pos hc.symm]
    cases r.context? c with
    | none => exact .absent
    | some context => exact .told
  · rw [if_neg hc, if_neg (Ne.symm hc)]
    exact .same _

/-- A change that leaves the context as it is leaves everything as it is. -/
theorem update_eq_self {target : ContextId} {f : Context → Context}
    (h : ∀ context, r.context? target = some context → f context = context) :
    r.update target f = r := by
  have hsame : r.contexts.modify target f = r.contexts := by
    refine List.ext_getElem? fun c => ?_
    show (r.update target f).context? c = r.context? c
    rw [context?_update]
    by_cases hc : c = target
    · rw [if_pos hc, hc]
      cases hcontext : r.context? target with
      | none => rfl
      | some context => exact congrArg some (h context hcontext)
    · exact if_neg hc
  show { r with contexts := r.contexts.modify target f } = r
  rw [hsame]

/-- A closed context is not fresh. -/
theorem close_isFresh (phase : Phase) : phase.close.isFresh = false := by
  unfold Phase.close
  split
  · rfl
  · rfl

/-- No transition leads from another phase to a fresh one. -/
theorem isFresh_of_step {transition : Transition} {phase phase' : Phase}
    (h : phase.step transition = .ok phase') (hfresh : phase'.isFresh = true) :
    phase.isFresh = true := by
  cases transition with
  | close =>
    cases h
    rw [close_isFresh] at hfresh
    cases hfresh
  | fail =>
    cases h
    cases hfresh
  | _ =>
    cases phase <;> cases h <;> first | rfl | cases hfresh

/-- The phase moves on. -/
theorem Evolves.of_step {id : ContextId} {context : Context}
    (hcontext : r.context? id = some context) {transition : Transition} {phase : Phase}
    (hstep : context.phase.step transition = .ok phase) :
    r.Evolves (r.setPhase id phase) fun _ => none := by
  refine .of_phase (f := fun _ => phase) fun other hother hfresh => ?_
  rw [hcontext] at hother
  cases hother
  exact isFresh_of_step hstep hfresh

/-- Nobody gets a handler or a session by a call, unless the call tells of a connection. -/
theorem evolves_call {id : ContextId} {context : Context}
    (hcontext : r.context? id = some context) (request : ContextCall)
    (hleaves : request.leavesArming = true) (htells : ∀ session, request ≠ .arm session) :
    r.Evolves (r.call id context request).1 fun _ => none := by
  have hstarts := request.starts r id context
  generalize r.call id context request = stretch at hstarts ⊢
  cases hstarts with
  | returns | sends | hands => exact .refl r
  | attaches | installs => cases hleaves
  | arms => exact absurd rfl (htells _)
  | moves _ hstep => exact .of_step hcontext hstep
  | puts => exact .of_setPhase id (by simpa [ContextCall.leavesArming] using hleaves)
  | opens hstep => exact .of_step hcontext hstep
  | aborts => exact .of_setPhase id rfl

/-- Nothing changes. Whoever was told, if anybody was, is no context. -/
theorem Evolves.of_idle {operation : Operation}
    (h : ∀ c session, operation.told? c = some session → r.context? c = none) :
    r.Evolves r fun c => operation.told? c := by
  intro c
  show RemotePrograms.Evolves (operation.told? c) (r.context? c) (r.context? c)
  cases htold : operation.told? c with
  | none => exact .same _
  | some session =>
    rw [h c session htold]
    exact .absent

/-- What the first stretch of an operation does to the contexts. -/
theorem evolves_start (r : Registry) (operation : Operation)
    (hleaves : operation.leavesArming = true) :
    r.Evolves (operation.start r).1 fun c => operation.told? c := by
  have hstarts := operation.starts r
  generalize operation.start r = stretch at hstarts ⊢
  cases hstarts with
  | returns hcall =>
    exact .of_idle fun c session htold => absurd (Operation.eq_of_told? htold) (hcall _ _)
  | loads hload => exact .of_eq (context?_load hload)
  | @registers _ loaded hload =>
    exact .of_eq fun c => (context?_subscribe loaded _ c).trans (context?_load hload c)
  | subscribes => exact .of_eq fun _ => rfl
  | connects => exact .of_create rfl rfl
  | creates => exact .of_create rfl rfl
  | @closes name closed hdisconnect =>
    intro c
    show RemotePrograms.Evolves none _ (closed.context? c)
    rw [context?_disconnect hdisconnect]
    split
    · cases r.context? c with
      | none => exact .absent
      | some context =>
        refine .moved fun hfresh => ?_
        rw [close_isFresh] at hfresh
        cases hfresh
    · exact .same _
  | handles _ hcontext => exact evolves_call hcontext (.dispatch _) rfl (by simp)
  | @calls id request context hcontext =>
    cases request with
    | arm session => exact .of_arm id session
    | _ => exact evolves_call hcontext _ hleaves (by simp)
  | misses hnone =>
    -- A number that names no context is left alone, even if it is told.
    refine .of_idle fun c session htold => ?_
    cases Operation.eq_of_told? htold
    exact hnone
  | aborts => exact .refl r
  | locks => exact .refl r

/-- The only phase that the end of an opening leads to is not fresh. -/
theorem evolves_completeOpening (r : Registry) (o : Opening) :
    r.Evolves (r.completeOpening o).1 fun _ => none := by
  unfold completeOpening
  split
  · split
    · exact .refl r
    · rename_i context hcontext
      split
      · rename_i phase hphase
        have hstep : context.phase.step .completeHandshake = .ok phase := hphase
        exact .of_step hcontext hstep
      · exact .refl r
  · exact .refl r

/-- An opening that fails changes at most the phase of its context, to one that is not fresh. -/
theorem evolves_failOpening (r : Registry) (id : ContextId) (guarded : Bool) (cause : Error) :
    r.Evolves (r.failOpening id guarded cause).1 fun _ => none := by
  cases guarded with
  | true => exact .of_setPhase id rfl
  | false => exact .refl r

/-- What a later stretch does to the contexts. It tells a context of its connection only when
support for remote programs has its turn. -/
theorem Evolves.of_continues {free : SessionId → Bool} {activity : Activity} {stretch : Stretch}
    (h : activity.Continues free r stretch) :
    r.Evolves stretch.1 fun c => activity.told? c := by
  cases h with
  | completes => exact r.evolves_completeOpening _
  | fails => exact r.evolves_failOpening _ _ _
  | publishes => exact .of_eq fun _ => rfl
  | arms => exact .of_arm _ _
  | _ => exact .refl r

end Registry

/-! ### Runs -/

namespace Machine

/-- The session on whose behalf a move tells a context of its connection. -/
def told? (m : Machine) (c : ContextId) : Move → Option Session
  | .call operation => operation.told? c
  | .resume id => (m.activity? id).bind (Activity.told? c)
  | .answer _ _ => none

/-- The session that a context is attached to. -/
def session? (m : Machine) (c : ContextId) : Option Session :=
  (m.registry.context? c).bind Context.session

/-- Whether a context can be armed at present. -/
def canArm (m : Machine) (c : ContextId) : Bool :=
  (m.registry.context? c).any fun context => decide context.CanArm

/-- The session that a move arms a context for. A context that is told in vain is not armed. -/
def arms? (m : Machine) (c : ContextId) (move : Move) : Option Session :=
  if m.canArm c then m.told? c move else none

/-- The sessions that a run arms a context for. -/
def armings (c : ContextId) (m : Machine) : List Move → List Session
  | [] => []
  | move :: moves => (m.arms? c move).toList ++ armings c (m.step move).1 moves

variable {m : Machine}

/-- What a move does to the contexts. -/
theorem evolves_step {move : Move} (hleaves : move.leavesArming = true) :
    m.registry.Evolves (m.step move).1.registry fun c => m.told? c move := by
  cases move with
  | call operation =>
    rw [step_call, registry_enter]
    exact Registry.evolves_start m.registry operation hleaves
  | resume id =>
    rcases resume_cases m id with ⟨activity, hactivity, hout, hstep⟩ | ⟨hidle, hstep⟩
    · rw [hstep, registry_enter]
      intro c
      show Evolves ((m.activity? id).bind (Activity.told? c)) _ _
      rw [hactivity]
      exact Registry.Evolves.of_continues (Activity.continues_resume m.registry _ hout) c
    · rw [hstep]
      intro c
      -- Only an activity that goes on by itself tells anybody.
      have htold : m.told? c (.resume id) = none :=
        Option.bind_eq_none_iff.mpr fun activity hactivity =>
          Activity.told?_of_isOutside c (hidle activity hactivity)
      show Evolves (m.told? c (.resume id)) _ _
      rw [htold]
      exact .same _
  | answer id reply =>
    rcases answer_cases m id reply with ⟨activity, -, hout, hstep⟩ | ⟨-, hstep⟩
    · rw [hstep, registry_enter]
      intro c
      show Evolves none _ _
      rw [← Activity.told?_of_isOutside c hout]
      exact Registry.Evolves.of_continues
        (Activity.continues_answer m.registry (fun _ => true) reply hout) c
    · rw [hstep]
      exact .refl _

/-- Every context of the machine has handler and session or neither. -/
def IsCoupled (m : Machine) : Prop :=
  ∀ c context, m.registry.context? c = some context → context.IsCoupled

/-- On a new connection there is no context, so nothing is torn apart. -/
theorem isCoupled_ofRegistry (available : List String) :
    (ofRegistry { available }).IsCoupled := by
  intro c context h
  cases h

/-- A move that leaves arming to the library keeps handlers and sessions together. -/
theorem isCoupled_step (h : m.IsCoupled) {move : Move} (hleaves : move.leavesArming = true) :
    (m.step move).1.IsCoupled := by
  intro c context hcontext
  have hevolves : Evolves (m.told? c move) _ _ := evolves_step hleaves c
  rw [hcontext] at hevolves
  generalize hbefore : m.registry.context? c = before at hevolves
  generalize m.told? c move = told at hevolves
  cases hevolves with
  | made hhandler hsession => exact .bare hhandler hsession
  | moved hphase => exact (h c _ hbefore).withPhase hphase
  | told => exact (h c _ hbefore).arm _

/-- So does a run of such moves. -/
theorem isCoupled_run (h : m.IsCoupled) (moves : List Move)
    (hleaves : ∀ move ∈ moves, move.leavesArming = true) : (m.run moves).1.IsCoupled :=
  run_induction h fun _ hm move hmove => isCoupled_step hm (hleaves move hmove)

/-- A move changes the session of a context only if it arms it, and then it had none. -/
theorem session?_step (h : m.IsCoupled) {move : Move} (hleaves : move.leavesArming = true)
    (c : ContextId) :
    (m.session? c).toList ++ (m.arms? c move).toList = ((m.step move).1.session? c).toList := by
  have hevolves : Evolves (m.told? c move) _ _ := evolves_step hleaves c
  unfold session? arms? canArm
  generalize hbefore : m.registry.context? c = before at hevolves
  generalize (m.step move).1.registry.context? c = after at hevolves
  generalize m.told? c move = told at hevolves
  cases hevolves with
  | absent => rfl
  | made _ hsession => simp [hsession]
  | moved => simp
  | @told session context =>
    rcases context.arm_cases session with ⟨hcan, harm⟩ | ⟨hcan, harm⟩
    · have hnone := ((h c context hbefore).bare_of_canArm hcan).2
      simp [hcan, harm, hnone, Context.armed]
    · simp [hcan, harm]

/-- A run arms a context for the session that it ends up with and for no other, unless it had one
before. -/
theorem armings_run (h : m.IsCoupled) (c : ContextId) (moves : List Move)
    (hleaves : ∀ move ∈ moves, move.leavesArming = true) :
    (m.session? c).toList ++ m.armings c moves = ((m.run moves).1.session? c).toList := by
  induction moves generalizing m with
  | nil => exact List.append_nil _
  | cons move moves ih =>
    have hmove := hleaves move List.mem_cons_self
    rw [armings, ← List.append_assoc, session?_step h hmove c]
    exact ih (isCoupled_step h hmove) fun other hother =>
      hleaves other (List.mem_cons_of_mem _ hother)

/-- A context keeps the session that it has. -/
theorem session?_run (h : m.IsCoupled) {c : ContextId} {session : Session}
    (hsession : m.session? c = some session) (moves : List Move)
    (hleaves : ∀ move ∈ moves, move.leavesArming = true) :
    (m.run moves).1.session? c = some session := by
  have hrun := armings_run h c moves hleaves
  rw [hsession] at hrun
  cases hafter : (m.run moves).1.session? c with
  | none =>
    rw [hafter] at hrun
    cases hrun
  | some other =>
    rw [hafter] at hrun
    simp only [Option.toList_some, List.cons_append, List.cons.injEq] at hrun
    rw [hrun.1]

/-- A context that has a session keeps it, and the handler too. -/
theorem attached_run (h : m.IsCoupled) {c : ContextId} {context : Context} {session : Session}
    (hcontext : m.registry.context? c = some context) (hsession : context.session = some session)
    (moves : List Move) (hleaves : ∀ move ∈ moves, move.leavesArming = true) :
    ∃ context', (m.run moves).1.registry.context? c = some context' ∧
      context'.session = some session ∧ context'.handler = context.handler := by
  have hkept : (m.run moves).1.session? c = some session := by
    refine session?_run h ?_ moves hleaves
    rw [session?, hcontext]
    exact hsession
  obtain ⟨context', hcontext', hsession'⟩ := Option.bind_eq_some_iff.mp hkept
  refine ⟨context', hcontext', hsession', ?_⟩
  -- There is only one handler that comes with a session.
  rw [(isCoupled_run h moves hleaves c context' hcontext').handler_eq hsession',
    (h c context hcontext).handler_eq hsession]

/-- All that a context is told changes is that context, as arming has it. -/
theorem registry_of_told {c : ContextId} {move : Move} {session : Session}
    (h : m.told? c move = some session) :
    (m.step move).1.registry = m.registry.update c (Context.arm session) := by
  cases move with
  | call operation =>
    rw [Operation.eq_of_told? h, step_call, registry_enter, Operation.start]
    cases hcontext : m.registry.context? c with
    | some context => rfl
    | none =>
      -- Arming a number that names no context changes nothing either.
      refine (Registry.update_eq_self (r := m.registry) fun context hsome => ?_).symm
      rw [hcontext] at hsome
      cases hsome
  | resume id =>
    rcases Option.bind_eq_some_iff.mp h with ⟨activity, hactivity, htold⟩
    rcases Activity.eq_of_told? htold with ⟨name, left, rfl⟩
    rw [step_resume hactivity rfl, registry_enter]
    rfl
  | answer id reply => cases h

end Machine

end RemotePrograms
