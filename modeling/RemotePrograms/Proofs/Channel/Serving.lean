import RemotePrograms.Proofs.Channel.Confined

/-!
# `RemotePrograms.Proofs.Channel.Serving`: what is done on behalf of one context

An order that is handed to a context keeps an operation busy for many stretches, with a transport,
with callbacks or with the end of a session. `Activity.Serves` says what can be left of such an
operation meanwhile, and `Contact.IsFor` what it can ask of the outside. Whatever happens between
its stretches, each one of them stays with the context (`Serving.staysWith`), so a call that begins
on behalf of a context never touches another one (`staysWith_call`).
-/

set_option autoImplicit false

namespace RemotePrograms

/-! ### Stretches -/

/-- What the outside is asked for on behalf of a context. -/
inductive Contact.IsFor (c : ContextId) : Contact → Prop where
  | send (transport : TransportId) (order : ClientOrder) : IsFor c (.send c transport order)
  | callback (handler : Nat) (order : ServerOrder) : IsFor c (.callback c handler order)
  | abort (session : SessionId) (reason : AbortReason) (message : String) :
      IsFor c (.abort session reason message)

/-- What can be left of an operation that was begun on behalf of a context. -/
inductive Activity.Serves (c : ContextId) : Activity → Prop where
  | opening {o : Opening} (left : List ClientOrder) : o.context = c → Serves c (.opening o left)
  | sending {o : Opening} (order : ClientOrder) (left : List ClientOrder) :
      o.context = c → Serves c (.sending o order left)
  | calling : Serves c .calling
  | aborting : Serves c .aborting

/-- What becomes of an operation on behalf of a context after a stretch. -/
inductive Progress.Serves (c : ContextId) : Progress → Prop where
  | returned (result : Result) : Serves c (.returned result)
  | continues {activity : Activity} : activity.Serves c → Serves c (.continues activity)
  | waits {contact : Contact} {activity : Activity} :
      contact.IsFor c → activity.Serves c → Serves c (.waits contact activity)

/-- What is left after a stretch on behalf of a context is on its behalf too. -/
theorem Progress.Serves.activity {c : ContextId} {progress : Progress} (h : progress.Serves c)
    {activity : Activity} (hactivity : progress.activity? = some activity) :
    activity.Serves c := by
  cases h with
  | returned result => cases hactivity
  | continues hserves | waits _ hserves =>
    cases hactivity
    exact hserves

/-- What is asked for after a stretch on behalf of a context is asked for on its behalf. -/
theorem Progress.Serves.isFor {c : ContextId} {progress : Progress} (h : progress.Serves c)
    {id id' : ActivityId} {contact : Contact}
    (hevent : progress.event? id = some (.contact id' contact)) : contact.IsFor c := by
  cases h with
  | returned result => cases hevent
  | continues _ => cases hevent
  | waits hcontact _ =>
    cases hevent
    exact hcontact

namespace Registry

variable {r : Registry} {c : ContextId}

/-- Nothing is left of an opening that failed. -/
theorem serves_failOpening (id : ContextId) (guarded : Bool) (cause : Error) :
    (r.failOpening id guarded cause).2.Serves c := .returned _

/-- Nothing is left of an opening that is complete. -/
theorem serves_completeOpening (o : Opening) : (r.completeOpening o).2.Serves c := by
  obtain ⟨result, hreturns⟩ := r.completeOpening_returns o
  rw [hreturns]
  exact .returned result

/-- What becomes of a call on a context after its first stretch. -/
theorem serves_call (c : ContextId) (context : Context) (request : ContextCall) :
    (r.call c context request).2.Serves c := by
  have hstarts := request.starts r c context
  generalize r.call c context request = stretch at hstarts ⊢
  cases hstarts with
  | opens | sends => exact .continues (.opening _ rfl)
  | hands => exact .waits (.callback _ _) .calling
  | aborts => exact .waits (.abort _ _ _) .aborting
  | _ => exact .returned _

/-- What serves a context goes on doing so, and changes nothing else. -/
theorem tends_continues {free : SessionId → Bool} {activity : Activity} {stretch : Stretch}
    (h : activity.Continues free r stretch) (hserves : activity.Serves c) :
    r.Confined c stretch ∧ stretch.2.Serves c := by
  cases hserves with
  | opening left hc =>
    subst hc
    cases h with
    | blocked => exact ⟨.continues fun c hc => by cases hc; rfl, .continues (.opening _ rfl)⟩
    | sends => exact ⟨.waits _ fun c hc => by cases hc; rfl, .waits (.send _ _) (.sending _ _ rfl)⟩
    | completes => exact ⟨r.confined_completeOpening _, serves_completeOpening _⟩
  | sending order left hc =>
    subst hc
    cases h with
    | sent => exact ⟨.continues fun c hc => by cases hc; rfl, .continues (.opening _ rfl)⟩
    | fails => exact ⟨r.confined_failOpening _ _ _, serves_failOpening _ _ _⟩
  | calling =>
    cases h with
    | called => exact ⟨.returned _, .returned _⟩
  | aborting =>
    cases h with
    | aborted => exact ⟨.returned _, .returned _⟩

end Registry

/-! ### Moves -/

namespace Machine

variable {m : Machine} {id : ActivityId} {c : ContextId} {move : Move}

/-- A move that has to do with one context only. -/
structure StaysWith (m : Machine) (c : ContextId) (move : Move) : Prop where
  registry_eq : (m.step move).1.registry
    = { m.registry with contexts := (m.step move).1.registry.contexts }
  context?_eq : ∀ other, other ≠ c →
    (m.step move).1.registry.context? other = m.registry.context? other
  contact : ∀ id contact, (m.step move).2 = some (.contact id contact) → contact.IsFor c

/-- A move stays with a context if the stretch that it enters changes no other one and is on its
behalf. -/
theorem staysWith_of_enter {stretch : Stretch} (hconfined : m.registry.Confined c stretch)
    (hserves : stretch.2.Serves c) (hstep : m.step move = (m.numbered move).enter id stretch) :
    m.StaysWith c move := by
  refine ⟨?_, fun other hother => ?_, fun id' contact hevent => ?_⟩
  · rw [hstep, registry_enter]
    exact hconfined.registry_eq
  · rw [hstep, registry_enter]
    exact hconfined.context?_eq other hother
  · rw [hstep, event_enter] at hevent
    exact hserves.isFor hevent

/-- A move that does nothing stays with every context. -/
theorem staysWith_of_idle (hstep : m.step move = (m, none)) : m.StaysWith c move := by
  refine ⟨?_, fun other _ => ?_, fun id contact hevent => ?_⟩
  · rw [hstep]
  · rw [hstep]
  · rw [hstep] at hevent
    cases hevent

/-- What is left of this operation is on behalf of a context. -/
structure Serving (m : Machine) (id : ActivityId) (c : ContextId) : Prop where
  lt_next : id < m.nextActivity
  serves : ∀ activity, m.activity? id = some activity → activity.Serves c

/-- An operation on behalf of a context goes on with a stretch on behalf of it. -/
theorem Serving.own (h : m.Serving id c) (hmove : move.activity? = some id) :
    (∃ stretch, m.step move = (m.numbered move).enter id stretch ∧
      m.registry.Confined c stretch ∧ stretch.2.Serves c) ∨ m.step move = (m, none) := by
  obtain ⟨activity, stretch, hactivity, hcontinues, hstep⟩ | hidle := m.carries_cases hmove
  · exact .inl ⟨stretch, hstep, Registry.tends_continues hcontinues (h.serves activity hactivity)⟩
  · exact .inr hidle

/-- Whoever carries on an operation on behalf of a context stays with it. -/
theorem Serving.staysWith (h : m.Serving id c) (hmove : move.activity? = some id) :
    m.StaysWith c move := by
  obtain ⟨stretch, hstep, hconfined, hserves⟩ | hidle := h.own hmove
  · exact staysWith_of_enter hconfined hserves hstep
  · exact staysWith_of_idle hidle

/-- What is left of an operation on behalf of a context stays so, whatever moves. -/
theorem Serving.step (h : m.Serving id c) (move : Move) : (m.step move).1.Serving id c := by
  refine ⟨Nat.lt_of_lt_of_le h.lt_next (nextActivity_le_step m move), fun activity hactivity => ?_⟩
  by_cases hmove : move.activity? = some id
  · obtain ⟨stretch, hstep, -, hserves⟩ | hidle := h.own hmove
    · -- What the stretch leaves is for the same context.
      rw [hstep, activity?_enter_self] at hactivity
      exact hserves.activity hactivity
    · rw [hidle] at hactivity
      exact h.serves activity hactivity
  · rw [activity?_step_ne h.lt_next hmove] at hactivity
    exact h.serves activity hactivity

/-- What is left of an operation on behalf of a context stays so to the end of a run. -/
theorem Serving.run (h : m.Serving id c) (moves : List Move) : (m.run moves).1.Serving id c :=
  run_induction (P := fun m => m.Serving id c) h fun _ hm move _ => hm.step move

/-- A call whose first stretch is on behalf of a context stays with it to its end. -/
theorem staysWith_call {operation : Operation}
    (hconfined : m.registry.Confined c (operation.start m.registry))
    (hserves : (operation.start m.registry).2.Serves c) :
    m.StaysWith c (.call operation) ∧
      ∀ between move, move.activity? = some m.nextActivity →
        (m.run (.call operation :: between)).1.StaysWith c move := by
  refine ⟨staysWith_of_enter hconfined hserves (step_call m operation),
    fun between move hmove => ?_⟩
  -- The number is new, so what is left under it is what the first stretch has left.
  have hserving : (m.step (.call operation)).1.Serving m.nextActivity c := by
    refine ⟨?_, fun activity hactivity => ?_⟩
    · rw [nextActivity_step_call]
      exact Nat.lt_succ_self _
    · rw [step_call, activity?_enter_self] at hactivity
      exact hserves.activity hactivity
  exact (hserving.run between).staysWith hmove

end Machine

end RemotePrograms
