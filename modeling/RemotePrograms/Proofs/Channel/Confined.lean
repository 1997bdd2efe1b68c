import RemotePrograms.Proofs.Channel.Arming

/-!
# `RemotePrograms.Proofs.Channel.Confined`: what has nothing to do with a context

A stretch about one context stays with that context: `Registry.Confined` says so, with one lemma
for each function. Its other side is `Registry.Spares`. A context that no name stands for, that
nobody calls and that no activity is about is left as it is, and remains unknown to everybody else
(`spares_step`). A number that was not given out yet is such a case: `Machine.IsKnown` says that no
name and no activity is about it.
-/

set_option autoImplicit false

namespace RemotePrograms

/-- The context that an activity is about. -/
def Activity.context? : Activity → Option ContextId
  | opening o _ => some o.context
  | sending o _ _ => some o.context
  | notifying _ c _ | notified _ c _ => some c
  | calling | aborting | acquiring _ | holding _ => none

/-! ### Stretches about one context -/

namespace Registry

/-- A stretch about one context: everything else stays as it is, and what is left of the operation
is about no other context. -/
structure Confined (r : Registry) (id : ContextId) (stretch : Stretch) : Prop where
  registry_eq : stretch.1 = { r with contexts := stretch.1.contexts }
  context?_eq : ∀ c, c ≠ id → stretch.1.context? c = r.context? c
  about : ∀ activity, stretch.2.activity? = some activity → ∀ c, activity.context? = some c → c = id

variable {r : Registry} {id : ContextId}

namespace Confined

/-- A stretch that returns and changes nothing stays with any context. -/
theorem returned (result : Result) : r.Confined id (r, .returned result) where
  registry_eq := rfl
  context?_eq _ _ := rfl
  about _ h := by cases h

/-- So does one that changes nothing and goes on with an activity about that context. -/
theorem continues {activity : Activity} (h : ∀ c, activity.context? = some c → c = id) :
    r.Confined id (r, .continues activity) where
  registry_eq := rfl
  context?_eq _ _ := rfl
  about _ hactivity := by
    cases hactivity
    exact h

/-- So does one that changes nothing and waits with an activity about that context. -/
theorem waits (contact : Contact) {activity : Activity}
    (h : ∀ c, activity.context? = some c → c = id) :
    r.Confined id (r, .waits contact activity) where
  registry_eq := rfl
  context?_eq _ _ := rfl
  about _ hactivity := by
    cases hactivity
    exact h

/-- The context itself may change first. -/
theorem of_update {f : Context → Context} {stretch : Stretch}
    (h : (r.update id f).Confined id stretch) : r.Confined id stretch where
  registry_eq := h.registry_eq
  context?_eq c hc := by
    rw [h.context?_eq c hc, context?_update, if_neg hc]
  about := h.about

end Confined

/-- An opening that fails concerns its own context only. -/
theorem confined_failOpening (r : Registry) (id : ContextId) (guarded : Bool) (cause : Error) :
    r.Confined id (r.failOpening id guarded cause) := by
  unfold failOpening
  split
  · exact .of_update (.returned _)
  · exact .returned _

/-- The end of an opening concerns its own context only. -/
theorem confined_completeOpening (r : Registry) (o : Opening) :
    r.Confined o.context (r.completeOpening o) := by
  unfold completeOpening
  split
  · split
    · exact .returned _
    · split
      · exact .of_update (.returned _)
      · exact .returned _
  · exact .returned _

/-- Whatever a context is called for concerns this context only. -/
theorem confined_call (r : Registry) (id : ContextId) (context : Context)
    (request : ContextCall) : r.Confined id (r.call id context request) := by
  have hstarts := request.starts r id context
  generalize r.call id context request = stretch at hstarts ⊢
  cases hstarts with
  | returns => exact .returned _
  | opens => exact .of_update (.continues fun c hc => by cases hc; rfl)
  | sends => exact .continues fun c hc => by cases hc; rfl
  | hands => exact .waits _ fun c hc => by cases hc
  | aborts => exact .of_update (.waits _ fun c hc => by cases hc)
  | _ => exact .of_update (.returned _)

/-- An order concerns the context that it is handed to, and no other. -/
theorem confined_handle (r : Registry) (id : ContextId) (context : Context)
    (order : ServerOrder) : r.Confined id (r.handle id context order) :=
  r.confined_call id context (.dispatch order)

/-! ### What a stretch spares -/

/-- A name stands for the context. -/
def Names (r : Registry) (c : ContextId) : Prop :=
  ∃ name, (name, c) ∈ r.connected

/-- What a name stands for is entered under that name. -/
theorem mem_of_channel? {name : String} {c : ContextId} (h : r.channel? name = some c) :
    (name, c) ∈ r.connected := by
  rcases List.lookup_eq_some_iff.mp h with ⟨before, later, heq, -⟩
  rw [heq]
  simp

/-- A context that a name stands for has a name. -/
theorem names_of_channel? {name : String} {c : ContextId} (h : r.channel? name = some c) :
    r.Names c :=
  ⟨name, mem_of_channel? h⟩

/-- A stretch that leaves a context as it is, gives it no name, and leaves nothing to do for it. -/
structure Spares (r : Registry) (c : ContextId) (stretch : Stretch) : Prop where
  context?_eq : stretch.1.context? c = r.context? c
  names : stretch.1.Names c → r.Names c
  about : ∀ activity, stretch.2.activity? = some activity → activity.context? ≠ some c

variable {c : ContextId}

/-- The registry stays as it is. -/
theorem Spares.same {progress : Progress}
    (h : ∀ activity, progress.activity? = some activity → activity.context? ≠ some c) :
    r.Spares c (r, progress) where
  context?_eq := rfl
  names hnames := hnames
  about := h

/-- A stretch that returns and changes nothing spares every context. -/
theorem Spares.returned (result : Result) : r.Spares c (r, .returned result) :=
  .same fun _ h => by cases h

/-- A stretch about one context spares every other one. -/
theorem Confined.spares {stretch : Stretch} (h : r.Confined id stretch) (hne : c ≠ id) :
    r.Spares c stretch where
  context?_eq := h.context?_eq c hne
  names hnames := by
    rcases hnames with ⟨name, hname⟩
    rw [h.registry_eq] at hname
    exact ⟨name, hname⟩
  about activity hactivity hc := hne (h.about activity hactivity c hc)

/-- A new context is spared by everything that does not make it. -/
theorem spares_create {context : Context} {progress : Progress} (hne : c ≠ r.nextContext)
    (h : ∀ activity, progress.activity? = some activity → activity.context? ≠ some c) :
    r.Spares c (r.create context, progress) where
  context?_eq := by
    show (r.create context).context? c = _
    rw [context?_create, if_neg hne]
  names hnames := hnames
  about := h

/-- The first stretch of an operation spares a context that has no name, unless it calls the
context or makes it. -/
theorem spares_start (operation : Operation) (hunnamed : ¬ r.Names c)
    (hcall : ∀ request, operation = .call c request → r.context? c = none)
    (hnew : (r.context? c).isSome ∨ (operation.start r).1.context? c = none) :
    r.Spares c (operation.start r) := by
  -- What is made has the next free number, and that is no context before and one afterwards.
  have hne : ∀ context, (r.context? c).isSome ∨ (r.create context).context? c = none →
      c ≠ r.nextContext := by
    intro context hnew hc
    subst hc
    rcases hnew with hsome | hnone
    · rw [context?_nextContext] at hsome
      cases hsome
    · rw [context?_create, if_pos rfl] at hnone
      cases hnone
  have hstarts := operation.starts r
  generalize operation.start r = stretch at hstarts hnew ⊢
  cases hstarts with
  | returns => exact .returned _
  | loads hload =>
    rcases load_cases hload with ⟨-, loaded, rfl, -⟩
    exact ⟨rfl, fun hnames => hnames, fun _ h => by cases h⟩
  | registers hload =>
    rcases load_cases hload with ⟨-, loaded, rfl, -⟩
    exact ⟨rfl, fun hnames => hnames, fun _ h => by cases h⟩
  | subscribes => exact ⟨rfl, fun hnames => hnames, fun _ h => by cases h⟩
  | connects =>
    have hother := hne _ hnew
    refine spares_create hother fun activity hactivity hc => ?_
    cases hactivity
    cases hc
    exact hother rfl
  | creates => exact spares_create (hne _ hnew) fun _ h => by cases h
  | @closes name r' hdisconnect =>
    refine ⟨?_, fun hnames => ?_, fun _ h => by cases h⟩
    · show r'.context? c = _
      rw [context?_disconnect hdisconnect]
      exact if_neg fun hchannel => hunnamed (names_of_channel? hchannel)
    · rcases hnames with ⟨other, hother⟩
      rcases Option.map_eq_some_iff.mp hdisconnect with ⟨id, -, rfl⟩
      exact ⟨other, (List.mem_filter.mp hother).1⟩
  | handles hchannel =>
    exact (r.confined_handle _ _ _).spares fun hc => hunnamed (names_of_channel? (hc ▸ hchannel))
  | @calls id request context hcontext =>
    refine (r.confined_call id context request).spares fun hc => ?_
    subst hc
    rw [hcall request rfl] at hcontext
    cases hcontext
  | misses => exact .returned _
  | aborts =>
    refine .same fun activity hactivity => ?_
    cases hactivity
    simp [Activity.context?]
  | locks =>
    refine .same fun activity hactivity => ?_
    cases hactivity
    simp [Activity.context?]

/-- A later stretch spares a context that its activity is not about. -/
theorem Spares.of_continues {free : SessionId → Bool} {activity : Activity} {stretch : Stretch}
    (h : activity.Continues free r stretch) (hother : activity.context? ≠ some c) :
    r.Spares c stretch := by
  have hstays : ∀ {progress : Progress}, (∀ later, progress.activity? = some later →
      later.context? = activity.context?) → r.Spares c (r, progress) := by
    intro progress hlater
    refine .same fun later hactivity => ?_
    rw [hlater later hactivity]
    exact hother
  cases h with
  | @completes o =>
    exact (r.confined_completeOpening o).spares fun hc => hother (congrArg some hc.symm)
  | @fails o order left cause =>
    exact (r.confined_failOpening o.context o.guarded cause).spares
      fun hc => hother (congrArg some hc.symm)
  | @publishes name id =>
    refine ⟨rfl, fun hnames => ?_, fun _ hnone => by cases hnone⟩
    -- The name that is given belongs to the activity's own context.
    rcases hnames with ⟨given, hgiven⟩
    rcases List.mem_cons.mp hgiven with heq | hgiven
    · cases heq
      exact absurd rfl hother
    · exact ⟨given, (List.mem_filter.mp hgiven).1⟩
  | @arms name id session left =>
    have hconfined : r.Confined id (r.update id (Context.arm session),
        .continues (.notifying name id left)) := by
      refine .of_update (.continues fun later hlater => ?_)
      cases hlater
      rfl
    exact hconfined.spares fun hc => hother (congrArg some hc.symm)
  | called | aborted | unlocks => exact .returned _
  | _ => exact hstays fun later hlater => by cases hlater; rfl

end Registry

/-! ### Moves -/

namespace Machine

variable {m : Machine} {c : ContextId}

/-- A context that has been left alone: it is as it was, no name stands for it, and no activity that
is about it is new. -/
structure Spared (m m' : Machine) (c : ContextId) : Prop where
  context?_eq : m'.registry.context? c = m.registry.context? c
  unnamed : ¬ m'.registry.Names c
  about : ∀ id activity, m'.activity? id = some activity → activity.context? = some c →
    m.activity? id = some activity

/-- A move leaves a context alone if it does not call the context, does not make it, and carries on
no activity that is about it. -/
theorem spares_step {move : Move} (hunnamed : ¬ m.registry.Names c)
    (hcall : ∀ request, move = .call (.call c request) → m.registry.context? c = none)
    (hnew : (m.registry.context? c).isSome ∨ (m.step move).1.registry.context? c = none)
    (hother : ∀ id activity, move.activity? = some id → m.activity? id = some activity →
      activity.context? ≠ some c) :
    m.Spared (m.step move).1 c := by
  have henter : ∀ {id : ActivityId} {stretch : Stretch}, m.registry.Spares c stretch →
      m.step move = (m.numbered move).enter id stretch → m.Spared (m.step move).1 c := by
    intro id stretch hspares hstep
    rw [hstep]
    refine ⟨?_, fun hnames => hunnamed (hspares.names ?_), fun other activity hactivity hc => ?_⟩
    · rw [registry_enter]
      exact hspares.context?_eq
    · rw [registry_enter] at hnames
      exact hnames
    · -- What the stretch leaves is not about the context, so the activity is an older one.
      by_cases hid : other = id
      · subst hid
        rw [activity?_enter_self] at hactivity
        exact absurd hc (hspares.about activity hactivity)
      · rw [activity?_enter_ne _ stretch hid, activity?_numbered] at hactivity
        exact hactivity
  have hidle : m.step move = (m, none) → m.Spared (m.step move).1 c := by
    intro hstep
    rw [hstep]
    exact ⟨rfl, hunnamed, fun _ _ hactivity _ => hactivity⟩
  cases hmove : move.activity? with
  | none =>
    cases move with
    | call operation =>
      refine henter (Registry.spares_start operation hunnamed (fun request hoperation => ?_) ?_)
        (step_call m operation)
      · exact hcall request (by rw [hoperation])
      · rw [step_call, registry_enter] at hnew
        exact hnew
    | resume id | answer id reply => cases hmove
  | some id =>
    rcases m.carries_cases hmove with ⟨activity, stretch, hactivity, hcontinues, hstep⟩ | hstep
    · exact henter (.of_continues hcontinues (hother id activity hmove hactivity)) hstep
    · exact hidle hstep

/-- A move leaves the activities alone that it does not carry on. -/
theorem activity?_step_ne {move : Move} {id : ActivityId} (hlt : id < m.nextActivity)
    (hother : move.activity? ≠ some id) : (m.step move).1.activity? id = m.activity? id := by
  cases hmove : move.activity? with
  | none =>
    cases move with
    | call operation =>
      rw [step_call, activity?_enter_ne _ _ (Nat.ne_of_lt hlt), activity?_numbered]
    | resume other | answer other reply => cases hmove
  | some other =>
    have hne : id ≠ other := fun hid => hother (hid ▸ hmove)
    rcases m.carries_cases hmove with ⟨activity, stretch, -, -, hstep⟩ | hstep
    · rw [hstep, activity?_enter_ne _ _ hne, activity?_numbered]
    · rw [hstep]

/-- Only contexts that were made have names or activities. -/
def IsKnown (m : Machine) : Prop :=
  ∀ c, m.registry.context? c = none →
    ¬ m.registry.Names c ∧ ∀ id activity, m.activity? id = some activity →
      activity.context? ≠ some c

/-- On a new connection there are no names and no activities. -/
theorem isKnown_ofRegistry (available : List String) :
    (ofRegistry { available }).IsKnown := by
  intro c _
  refine ⟨fun hnames => ?_, fun id activity hactivity => ?_⟩
  · rcases hnames with ⟨name, hname⟩
    cases hname
  · cases hactivity

/-- A move gives no name to a number that is no context, and leaves nothing to do for it. -/
theorem isKnown_step (h : m.IsKnown) {move : Move} (hleaves : move.leavesArming = true) :
    (m.step move).1.IsKnown := by
  intro c hnone
  -- No context vanishes, so this one was not there before either.
  have hbefore : m.registry.context? c = none := by
    have hevolves : Evolves (m.told? c move) _ _ := evolves_step hleaves c
    rw [hnone] at hevolves
    generalize m.registry.context? c = before at hevolves
    generalize m.told? c move = told at hevolves
    cases hevolves
    rfl
  rcases h c hbefore with ⟨hunnamed, habout⟩
  rcases spares_step hunnamed (fun _ _ => hbefore) (.inr hnone)
    (fun id activity _ hactivity => habout id activity hactivity) with ⟨-, hnames, hactivities⟩
  refine ⟨hnames, fun id activity hactivity hc => ?_⟩
  exact habout id activity (hactivities id activity hactivity hc) hc

/-- So does a run. -/
theorem isKnown_run (h : m.IsKnown) (moves : List Move)
    (hleaves : ∀ move ∈ moves, move.leavesArming = true) : (m.run moves).1.IsKnown :=
  run_induction h fun _ hm move hmove => isKnown_step hm (hleaves move hmove)

end Machine

end RemotePrograms
