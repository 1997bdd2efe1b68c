import RemotePrograms.Proofs.Channel.Showings

/-!
# `RemotePrograms.Proofs.Channel.Audience`: who is told of a new channel

A channel that is connected is shown to everybody who is on the list at that moment. While one of
them looks at it, anything may happen: others register, the same name is connected once more, a
channel goes away. The list is read once, so none of that has a say in who is still to come.

Nothing but a number stands for a context here, and whoever knows it can call the context. The
number of a new one is known to the subscriber that looks at it and to nobody else. `Machine.Lends`
says of a run that everybody keeps to that.

`Machine.Presents` says how far a connecting has come, and `Machine.Turns` what one move makes of
it. The rest goes by induction on the moves, with one case for each kind of turn:

* `Presents.tells`: those who have been told and those who are left are the list, and nobody is left
  when the connecting returns.
* `Presents.seen`: each of them sees the context as the one before left it.
* `Presents.goes_on`: nothing holds the connecting up but the subscriber that looks at the channel.

`audience_told` puts them together.
-/

set_option autoImplicit false

namespace RemotePrograms

/-! ### Moves that have to do with a connecting -/

namespace Machine

/-- Whether a move has to do with a context: it calls the context, or it carries on an activity that
is about it. -/
def concerns (c : ContextId) (m : Machine) : Move → Bool
  | .call (.call other _) => other == c
  | .call _ => false
  | .resume id | .answer id _ => (m.activity? id).bind Activity.context? == some c

/-- Whether an activity that connects a channel is between two subscribers. -/
def isBetween (m : Machine) (id : ActivityId) : Bool :=
  match m.activity? id with
  | some (.notifying _ _ _) => true
  | _ => false

/-- The activity lends a context to those to whom it shows it: between two of them nobody else does
anything with it. -/
def Lends (id : ActivityId) (c : ContextId) (m : Machine) : List Move → Prop
  | [] => True
  | move :: moves =>
    (m.isBetween id = true → move.activity? = some id ∨ m.concerns c move = false) ∧
      Lends id c (m.step move).1 moves

instance (id : ActivityId) (c : ContextId) :
    (m : Machine) → (moves : List Move) → Decidable (m.Lends id c moves)
  | _, [] => .isTrue trivial
  | m, move :: moves =>
    have : Decidable ((m.step move).1.Lends id c moves) := instDecidableLends id c _ moves
    inferInstanceAs (Decidable ((_ → _ ∨ _) ∧ _))

/-- The move fits the activity: it lets it go on, or replies to it, as the activity needs it. -/
inductive Carries (m : Machine) (id : ActivityId) : Move → Prop where
  | resume {activity : Activity} : m.activity? id = some activity → activity.isOutside = false →
      Carries m id (.resume id)
  | answer {activity : Activity} (reply : Except Error Unit) : m.activity? id = some activity →
      activity.isOutside = true → Carries m id (.answer id reply)

variable {m : Machine} {id : ActivityId} {move : Move}

/-- A move that carries an activity on names it. -/
theorem Carries.activity?_eq (h : m.Carries id move) : move.activity? = some id := by
  cases h <;> rfl

end Machine

/-! ### A connecting, move by move -/

/-- What is left of a connecting. While somebody looks at the channel, it is held up. -/
def Activity.presents (name : String) (c : ContextId) (left : List Subscriber) (held : Bool) :
    Activity :=
  if held then .notified name c left else .notifying name c left

/-- A connecting has two stretches to come for each subscriber that is left, and one to end with.
While a subscriber looks at the channel, that is one more. -/
theorem Activity.stretches_presents (name : String) (c : ContextId) (left : List Subscriber)
    (held : Bool) :
    (presents name c left held).stretches = 2 * left.length + 1 + held.toNat := by
  cases held <;> rfl

namespace Machine

variable {m : Machine} {id : ActivityId} {name : String} {c : ContextId} {held : Bool}
  {left : List Subscriber} {move : Move}

/-- The activity `id` connects the channel `name`. It has still to show its context `c` to those who
are `left`. -/
structure Presents (m : Machine) (id : ActivityId) (name : String) (c : ContextId) (held : Bool)
    (left : List Subscriber) : Prop where
  exists_tells : ∃ called done, m.Tells called done
  activity?_eq : m.activity? id = some (.presents name c left held)

/-- What one move makes of a connecting. -/
inductive Turns (m : Machine) (id : ActivityId) (name : String) (c : ContextId) (move : Move) :
    Bool → List Subscriber → Prop where
  /-- The connecting is left as it is. So is its context, unless the move has to do with it. -/
  | waits {held : Bool} {left : List Subscriber} :
      ¬ m.Carries id move →
      m.showing? id move = none → m.handBack? id move = none →
      (move.activity? = some id ∨ m.concerns c move = false →
        (m.step move).1.registry.context? c = m.registry.context? c) →
      (m.step move).1.Presents id name c held left → Turns m id name c move held left
  /-- The channel is shown to somebody outside. -/
  | shows {subscriber : Nat} {left : List Subscriber} :
      m.showing? id move = some ⟨.custom subscriber, c, m.registry.context? c⟩ →
      m.handBack? id move = none →
      (m.step move).1.Presents id name c true left →
      Turns m id name c move false (.custom subscriber :: left)
  /-- Support for remote programs is told. -/
  | arms {session : Session} {left : List Subscriber} :
      m.showing? id move = some ⟨.remotePrograms session, c, m.registry.context? c⟩ →
      m.handBack? id move = (m.step move).1.registry.context? c →
      (m.step move).1.Presents id name c false left →
      Turns m id name c move false (.remotePrograms session :: left)
  /-- Somebody outside has seen enough. -/
  | returns {left : List Subscriber} :
      m.showing? id move = none →
      m.handBack? id move = (m.step move).1.registry.context? c →
      (m.step move).1.Presents id name c false left → Turns m id name c move true left
  /-- Everybody has seen the channel. -/
  | ends :
      m.showing? id move = none → m.handBack? id move = none →
      (m.step move).2 = some (.returned id (.ok (.context c))) → Turns m id name c move false []

namespace Presents

/-- A connecting shows its channel until it has returned. -/
theorem shows?_eq (h : m.Presents id name c held left) : m.shows? id = some (name, c) := by
  rw [shows?, h.activity?_eq]
  cases held <;> rfl

/-- The number of a connecting was given out. -/
theorem lt_next (h : m.Presents id name c held left) : id < m.nextActivity := by
  obtain ⟨called, done, htells⟩ := h.exists_tells
  obtain ⟨operation, hcalled, -⟩ := htells.stems id _ h.activity?_eq
  obtain ⟨hlt, -⟩ := List.getElem?_eq_some_iff.mp hcalled
  rw [← htells.length_eq]
  exact hlt

/-- The context that is shown is there. -/
theorem exists_context (h : m.Presents id name c held left) :
    ∃ context, m.registry.context? c = some context := by
  obtain ⟨called, done, htells⟩ := h.exists_tells
  obtain ⟨context, hcontext, -⟩ := (htells.isRouted.shown id name c h.shows?_eq).1.context
  exact ⟨context, hcontext⟩

/-- No name stands for the context that is shown. -/
theorem unnamed (h : m.Presents id name c held left) : ¬ m.registry.Names c := by
  obtain ⟨called, done, htells⟩ := h.exists_tells
  exact (htells.isRouted.shown id name c h.shows?_eq).2

/-- The connecting goes on like this. -/
theorem of_step (h : m.Presents id name c held left) {held' : Bool} {left' : List Subscriber}
    (hactivity : (m.step move).1.activity? id = some (.presents name c left' held')) :
    (m.step move).1.Presents id name c held' left' := by
  obtain ⟨called, done, htells⟩ := h.exists_tells
  exact ⟨⟨_, _, htells.step move⟩, hactivity⟩

/-- A move that is none of its own leaves the connecting as it is. -/
theorem turns_other (h : m.Presents id name c held left) (hother : move.activity? ≠ some id) :
    m.Turns id name c move held left := by
  have hnothing : m.showing? id move = none ∧ m.handBack? id move = none := by
    cases move with
    | call operation => exact ⟨rfl, rfl⟩
    | resume other =>
      have hne : other ≠ id := fun hid => hother (congrArg some hid)
      exact ⟨if_neg hne, if_neg hne⟩
    | answer other reply => exact ⟨rfl, if_neg fun hid => hother (congrArg some hid)⟩
  refine .waits (fun hcarries => hother hcarries.activity?_eq) hnothing.1 hnothing.2 ?_ ?_
  · -- The context has no name yet, so only who concerns it could change it.
    rintro (hown | hconcerns)
    · exact absurd hown hother
    · obtain ⟨context, hcontext⟩ := h.exists_context
      refine (spares_step h.unnamed ?_ (.inl (by rw [hcontext]; rfl)) ?_).context?_eq
      · rintro request rfl
        simp [concerns] at hconcerns
      · intro other activity hmove hactivity hc
        cases move with
        | call operation => cases hmove
        | resume _ | answer _ _ =>
          cases hmove
          simp [concerns, hactivity, hc] at hconcerns
  · refine h.of_step ?_
    rw [activity?_step_ne h.lt_next hother]
    exact h.activity?_eq

/-- A move that does nothing leaves the connecting as it is. -/
theorem turns_idle (h : m.Presents id name c held left) (hstep : m.step move = (m, none))
    (hcarries : ¬ m.Carries id move) (hshowing : m.showing? id move = none)
    (hback : m.handBack? id move = none) : m.Turns id name c move held left := by
  refine .waits hcarries hshowing hback (fun _ => by rw [hstep]) ?_
  rw [hstep]
  exact h

/-- Between two subscribers the connecting goes on by itself, to the next one or to its end. -/
theorem turns_resume (h : m.Presents id name c held left) :
    m.Turns id name c (.resume id) held left := by
  have hactivity := h.activity?_eq
  cases held with
  | true =>
    have houtside : ∀ activity, m.activity? id = some activity → activity.isOutside = true := by
      intro activity hsome
      rw [hactivity] at hsome
      cases hsome
      rfl
    -- While a subscriber has the channel, the connecting waits and does nothing.
    refine h.turns_idle (step_resume_idle houtside) ?_ ?_ ?_
    · rintro (⟨hsome, hout⟩ | _)
      rw [houtside _ hsome] at hout
      cases hout
    · simp [showing?, hactivity, Activity.presents]
    · simp [handBack?, hactivity, Activity.presents]
  | false =>
    have hstep := step_resume hactivity rfl
    cases left with
    | nil =>
      refine .ends ?_ ?_ ?_
      · simp [showing?, hactivity, Activity.presents]
      · simp [handBack?, hactivity, Activity.presents]
      · -- Nobody is left to be shown the channel, so the connecting returns.
        rw [hstep, event_enter]
        rfl
    | cons subscriber left =>
      have hshowing : m.showing? id (.resume id) = some ⟨subscriber, c, m.registry.context? c⟩ := by
        simp [showing?, hactivity, Activity.presents]
      cases subscriber with
      | custom subscriber =>
        refine .shows hshowing ?_ (h.of_step ?_)
        · simp [handBack?, hactivity, Activity.presents]
        · rw [hstep, activity?_enter_self]
          rfl
      | remotePrograms session =>
        refine .arms hshowing ?_ (h.of_step ?_)
        · simp [handBack?, hactivity, Activity.presents]
        · rw [hstep, activity?_enter_self]
          rfl

/-- While a subscriber looks at the channel, the connecting goes on when it is through. -/
theorem turns_answer (h : m.Presents id name c held left) (reply : Except Error Unit) :
    m.Turns id name c (.answer id reply) held left := by
  have hactivity := h.activity?_eq
  cases held with
  | false =>
    have hinside : ∀ activity, m.activity? id = some activity → activity.isOutside = false := by
      intro activity hsome
      rw [hactivity] at hsome
      cases hsome
      rfl
    refine h.turns_idle (step_answer_idle reply hinside) ?_ rfl ?_
    · rintro (_ | ⟨_, hsome, hout⟩)
      rw [hinside _ hsome] at hout
      cases hout
    · simp [handBack?, hactivity, Activity.presents]
  | true =>
    have hstep := step_answer reply hactivity rfl
    refine .returns rfl ?_ (h.of_step ?_)
    · simp [handBack?, hactivity, Activity.presents]
    · rw [hstep, activity?_enter_self]
      rfl

/-- What a move makes of a connecting. -/
theorem turns (h : m.Presents id name c held left) (move : Move) :
    m.Turns id name c move held left := by
  by_cases hown : move.activity? = some id
  · cases move with
    | call operation => cases hown
    | resume other =>
      cases hown
      exact h.turns_resume
    | answer other reply =>
      cases hown
      exact h.turns_answer reply
  · exact h.turns_other hown

end Presents

/-! ### A connecting from beginning to end -/

/-- An activity that is finished shows nothing any more. -/
theorem showing?_finished (hnone : m.activity? id = none) (hlt : id < m.nextActivity)
    (moves : List Move) : m.record (showing? id) moves = [] := by
  induction moves generalizing m with
  | nil => rfl
  | cons move moves ih =>
    have hshowing : m.showing? id move = none := by
      cases move with
      | resume other => simp [showing?, hnone]
      | _ => rfl
    have hnext := ih (step_finished hnone hlt move).1
      (Nat.lt_of_lt_of_le hlt (nextActivity_le_step m move))
    rw [record, hshowing, hnext]
    rfl

/-- What finishes behind a move finishes with the move in front as well. -/
theorem Finishes.cons {moves : List Move} {result : Result} (move : Move)
    (h : (m.step move).1.Finishes moves id result) : m.Finishes (move :: moves) id result := by
  obtain ⟨before, last, rfl, hreturned⟩ := h
  exact ⟨move :: before, last, rfl, hreturned⟩

namespace Presents

/-- When everybody has seen the channel, the connecting is over. -/
theorem showing?_ended (h : m.Presents id name c held left) {result : Result}
    (hreturned : (m.step move).2 = some (.returned id result)) (moves : List Move) :
    (m.step move).1.record (showing? id) moves = [] :=
  showing?_finished (activity?_of_returned hreturned)
    (Nat.lt_of_lt_of_le h.lt_next (nextActivity_le_step m move)) moves

/-- Those who were told and those who are left are those who were left before, in their order. If
the connecting has come to its end, nobody is left. -/
theorem tells (h : m.Presents id name c held left) (moves : List Move) :
    (((m.record (showing? id) moves).map Showing.subscriber = left ∧
      ∃ part, part <+: moves ∧ m.Finishes part id (.ok (.context c))) ∨
    ∃ held' left', (m.record (showing? id) moves).map Showing.subscriber ++ left' = left ∧
      (m.run moves).1.Presents id name c held' left') := by
  induction moves generalizing m held left with
  | nil => exact .inr ⟨held, left, rfl, h⟩
  | cons move moves ih =>
    have hcons : ∀ {part : List Move}, part <+: moves →
        (m.step move).1.Finishes part id (.ok (.context c)) →
        ∃ part, part <+: move :: moves ∧ m.Finishes part id (.ok (.context c)) := by
      intro part hpart hfinishes
      exact ⟨move :: part, List.cons_prefix_cons.mpr ⟨rfl, hpart⟩, hfinishes.cons move⟩
    -- What is noted of this move comes before what is noted of the later ones.
    cases h.turns move with
    | waits _ hshowing _ _ hnext | returns hshowing _ hnext =>
      rw [record, hshowing]
      obtain ⟨htold, part, hpart, hfinishes⟩ | hgoes := ih hnext
      · exact .inl ⟨htold, hcons hpart hfinishes⟩
      · exact .inr hgoes
    | shows hshowing _ hnext | arms hshowing _ hnext =>
      rw [record, hshowing]
      obtain ⟨htold, part, hpart, hfinishes⟩ | ⟨held', left', htold, hgoes⟩ := ih hnext
      · exact .inl ⟨congrArg _ htold, hcons hpart hfinishes⟩
      · exact .inr ⟨held', left', congrArg _ htold, hgoes⟩
    | ends hshowing _ hreturned =>
      rw [record, hshowing, h.showing?_ended hreturned]
      exact .inl ⟨rfl, [move], List.cons_prefix_cons.mpr ⟨rfl, List.nil_prefix⟩, [], move, rfl,
        hreturned⟩

/-- It is always the same context. -/
theorem context_eq (h : m.Presents id name c held left) (moves : List Move) :
    ∀ showing ∈ m.record (showing? id) moves, showing.context = c := by
  induction moves generalizing m held left with
  | nil => simp [record]
  | cons move moves ih =>
    cases h.turns move with
    | waits _ hshowing _ _ hnext | returns hshowing _ hnext =>
      rw [record, hshowing]
      exact ih hnext
    | shows hshowing _ hnext | arms hshowing _ hnext =>
      rw [record, hshowing]
      exact List.forall_mem_cons.mpr ⟨rfl, ih hnext⟩
    | ends hshowing _ hreturned =>
      rw [record, hshowing, h.showing?_ended hreturned]
      simp

/-- Each subscriber sees the context as the one before left it, if nobody else has to do with it
between them. While somebody looks at the context, the next one sees what becomes of it; otherwise
the next one sees it as it is. -/
theorem seen (h : m.Presents id name c held left) (moves : List Move)
    (hlends : m.Lends id c moves) :
    (held = true → (m.record (showing? id) moves).map Showing.seen
      <+: (m.record (handBack? id) moves).map some) ∧
    (held = false → (m.record (showing? id) moves).map Showing.seen
      <+: m.registry.context? c :: (m.record (handBack? id) moves).map some) := by
  induction moves generalizing m held left with
  | nil => exact ⟨fun _ => List.nil_prefix, fun _ => List.nil_prefix⟩
  | cons move moves ih =>
    obtain ⟨hlend, hlends⟩ := hlends
    rw [record, record]
    cases h.turns move with
    | waits _ hshowing hback hcontext hnext =>
      rw [hshowing, hback]
      obtain ⟨hheld, hfree⟩ := ih hnext hlends
      constructor
      · exact hheld
      · intro hbetween
        -- Between two subscribers nothing but the connecting itself may touch the context.
        have hsame : (m.step move).1.registry.context? c = m.registry.context? c := by
          apply hcontext
          apply hlend
          simp [isBetween, h.activity?_eq, hbetween, Activity.presents]
        rw [← hsame]
        exact hfree hbetween
    | shows hshowing hback hnext =>
      rw [hshowing, hback]
      constructor
      · intro hheld
        cases hheld
      · intro _
        exact List.cons_prefix_cons.mpr ⟨rfl, (ih hnext hlends).1 rfl⟩
    | arms hshowing hback hnext =>
      -- Support for remote programs is shown the context and hands it back in one move.
      rw [hshowing, hback]
      obtain ⟨context, hcontext⟩ := hnext.exists_context
      have hseen := (ih hnext hlends).2 rfl
      rw [hcontext] at hseen ⊢
      constructor
      · intro hheld
        cases hheld
      · intro _
        exact List.cons_prefix_cons.mpr ⟨rfl, hseen⟩
    | returns hshowing hback hnext =>
      -- Whatever became of the context meanwhile, it is handed back as it is now.
      rw [hshowing, hback]
      obtain ⟨context, hcontext⟩ := hnext.exists_context
      have hseen := (ih hnext hlends).2 rfl
      rw [hcontext] at hseen ⊢
      constructor
      · intro _
        exact hseen
      · intro hheld
        cases hheld
    | ends hshowing _ hreturned =>
      rw [hshowing, h.showing?_ended hreturned]
      exact ⟨fun _ => List.nil_prefix, fun _ => List.nil_prefix⟩

/-- A move that fits the connecting ends it, or leaves less of it to do. -/
theorem goes_on (h : m.Presents id name c held left) (hcarries : m.Carries id move) :
    (m.step move).2 = some (.returned id (.ok (.context c))) ∨
      ∃ activity, (m.step move).1.activity? id = some activity ∧
        activity.stretches < (Activity.presents name c left held).stretches := by
  cases h.turns move with
  | waits hidle => exact absurd hcarries hidle
  | shows _ _ hnext | arms _ _ hnext | returns _ _ hnext =>
    refine .inr ⟨_, hnext.activity?_eq, ?_⟩
    simp only [Activity.stretches_presents, List.length_cons, Bool.toNat_true, Bool.toNat_false]
    omega
  | ends _ _ hreturned => exact .inl hreturned

/-- There is always a move that fits. -/
theorem exists_carries (h : m.Presents id name c held left) : ∃ move, m.Carries id move := by
  cases held with
  | false => exact ⟨.resume id, .resume h.activity?_eq rfl⟩
  | true => exact ⟨.answer id (.ok ()), .answer _ h.activity?_eq rfl⟩

end Presents

/-- A channel that is connected now is shown to this audience, to one after another. Either all of
it have been told and the connecting has returned the new context, or the connecting is still under
way: there are moves that carry it on, and each of them ends it or leaves less of it to do. -/
def TellsAudience (m : Machine) (name : String) (transport : TransportId)
    (audience : List Subscriber) (later : List Move) : Prop :=
  let moves := .call (.connect name transport) :: later
  let id := m.nextActivity
  let result : Result := .ok (.context m.registry.nextContext)
  let told := (m.record (showing? id) moves).map Showing.subscriber
  (told = audience ∧ ∃ part, part <+: moves ∧ m.Finishes part id result) ∨
    ∃ activity left, told ++ left = audience ∧ (m.run moves).1.activity? id = some activity ∧
      (∃ move, (m.run moves).1.Carries id move) ∧
      ∀ move, (m.run moves).1.Carries id move →
        m.Finishes (moves ++ [move]) id result ∨
          ∃ activity', (m.run (moves ++ [move])).1.activity? id = some activity' ∧
            activity'.stretches < activity.stretches

/-- The first stretch of connecting makes the context and takes the list as it is. -/
theorem presents_connect {called : List Operation} {done : List Completion}
    (htells : m.Tells called done) (hloaded : name ∈ m.registry.loaded) (transport : TransportId) :
    (m.step (.call (.connect name transport))).1.Presents m.nextActivity name
        m.registry.nextContext false m.registry.subscribers ∧
      (m.step (.call (.connect name transport))).1.registry.context? m.registry.nextContext
        = some ⟨name, transport, none, none, .channelConnected⟩ := by
  have hstart : (Operation.connect name transport).start m.registry
      = (m.registry.create { name, transport, phase := .channelConnected },
        .continues (.notifying name m.registry.nextContext m.registry.subscribers)) := by
    rw [Operation.start, Registry.beginConnect, Registry.isLoaded, if_pos (by simpa using hloaded)]
  refine ⟨⟨⟨_, _, htells.step _⟩, ?_⟩, ?_⟩
  · rw [step_call, activity?_enter_self, hstart]
    rfl
  · rw [step_call, registry_enter, hstart]
    exact (m.registry.context?_create _ _).trans (if_pos rfl)

/-- Whoever is on the list when a channel is connected is told of it. -/
theorem tellsAudience {called : List Operation} {done : List Completion}
    (htells : m.Tells called done) (hloaded : name ∈ m.registry.loaded) (transport : TransportId)
    (later : List Move) : m.TellsAudience name transport m.registry.subscribers later := by
  have hpresents := (presents_connect htells hloaded transport).1
  obtain ⟨htold, part, hpart, hfinishes⟩ | ⟨held, left, htold, hgoes⟩ := hpresents.tells later
  · exact .inl ⟨htold, _, List.cons_prefix_cons.mpr ⟨rfl, hpart⟩, hfinishes.cons _⟩
  · refine .inr ⟨_, left, htold, hgoes.activity?_eq, hgoes.exists_carries, ?_⟩
    intro move hcarries
    obtain hreturned | ⟨activity, hactivity, hless⟩ := hgoes.goes_on hcarries
    · exact .inl ⟨_, move, rfl, hreturned⟩
    · refine .inr ⟨activity, ?_, hless⟩
      rw [run_append]
      exact hactivity

end Machine

/-! ### The property -/

/-- A channel that is connected is shown to those who are on the list when that begins, to each of
them once, in the order in which they registered, and then the connecting returns. Nothing that
happens meanwhile changes who is told, whether a subscriber does it or somebody else. They are all
shown one and the same context: those outside are asked to look at it, and support for remote
programs arms it. The context is new, and the first of them sees it connected, with neither a
session nor a handler. If nobody else has to do with it between two of them, each one after the
first sees it as the one before left it.

Whoever registers meanwhile is told of every channel whose connecting begins later, even if the
first connecting is still under way then. -/
theorem audience_told (available : List String) (moves later : List Move) (name : String)
    (transport : TransportId)
    (hloaded : name ∈ ((Machine.ofRegistry { available }).run moves).1.registry.loaded) :
    let m := ((Machine.ofRegistry { available }).run moves).1
    let call : Move := .call (.connect name transport)
    let id := m.nextActivity
    let c := m.registry.nextContext
    let fresh : Context := ⟨name, transport, none, none, .channelConnected⟩
    let told := m.record (Machine.showing? id) (call :: later)
    m.TellsAudience name transport (audience available moves) later ∧
    (∀ showing ∈ told, showing.context = c) ∧
    (m.run (call :: later)).2.filterMap (Event.notify? id) = told.filterMap Showing.notify? ∧
    (∀ before move session seen,
      (m.run before).1.showing? id move = some ⟨.remotePrograms session, c, seen⟩ →
      (m.run (before ++ [move])).1.registry
        = (m.run before).1.registry.update c (Context.arm session)) ∧
    m.registry.context? c = none ∧ (m.step call).1.registry.context? c = some fresh ∧
    (m.Lends id c (call :: later) → told.map Showing.seen
      <+: (fresh :: m.record (Machine.handBack? id) (call :: later)).map some) ∧
    ∀ before name' transport' after, later = before ++ .call (.connect name' transport') :: after →
      name' ∈ (m.run (call :: before)).1.registry.loaded →
      (m.run (call :: before)).1.TellsAudience name' transport'
        (audience available moves ++ audience available before) after := by
  intro m call id c fresh told
  have hrun : ∀ moves, ∃ called done,
      ((Machine.ofRegistry { available }).run moves).1.Tells called done :=
    fun moves => ⟨_, _, (Machine.tells_ofRegistry available).run moves⟩
  have hlist : ∀ moves, ((Machine.ofRegistry { available }).run moves).1.registry.subscribers
      = audience available moves := by
    intro moves
    rw [Machine.subscribers_run]
    rfl
  obtain ⟨called, done, htells⟩ := hrun moves
  obtain ⟨hpresents, hfresh⟩ := Machine.presents_connect htells hloaded transport
  refine ⟨?_, hpresents.context_eq later, Machine.filterMap_notify? id m (call :: later), ?_,
    m.registry.context?_nextContext, hfresh, ?_, ?_⟩
  · rw [← hlist moves]
    exact Machine.tellsAudience htells hloaded transport later
  · intro before move session seen hshowing
    rw [Machine.run_append]
    exact Machine.registry_of_showing? hshowing
  · intro hlends
    have hseen := (hpresents.seen later hlends.2).2 rfl
    rw [hfresh] at hseen
    exact hseen
  · rintro before name' transport' after rfl hloaded'
    -- The second connecting begins in a run of its own, after all that went before.
    have hafter : (m.run (call :: before)).1
        = ((Machine.ofRegistry { available }).run (moves ++ call :: before)).1 := by
      rw [Machine.run_append]
    obtain ⟨called', done', htells'⟩ := hrun (moves ++ call :: before)
    have hboth : audience available (moves ++ call :: before)
        = audience available moves ++ audience available before := by
      rw [audience_append]
      rfl
    rw [hafter] at hloaded' ⊢
    rw [← hboth, ← hlist]
    exact Machine.tellsAudience htells' hloaded' transport' after

section Guests

/-- The session that support for remote programs is loaded for. -/
def hostSession : Session := ⟨1, {}⟩

/-- A session that a subscriber attaches. -/
def guestSession : Session := ⟨2, { program := "notepad" }⟩

/-- A session and two others register. -/
def guestMoves : List Move :=
  [.call (.loadRemotePrograms hostSession), .call (.subscribe 7), .call (.subscribe 8)]

/-- The session is told of a channel, and then the first of the others, which registers a third
one. -/
def guestConnecting : List Move :=
  [.resume 3, .resume 3, .call (.subscribe 9)]

/-- While it looks at the channel, the name is connected once more. Then it attaches its session,
and the first connecting goes on. -/
def guestNested : List Move :=
  [.resume 5, .resume 5, .answer 5 (.ok ()), .resume 5, .answer 5 (.ok ()), .resume 5,
    .answer 5 (.ok ()), .resume 5, .call (.call 0 (.attach guestSession)), .answer 3 (.ok ()),
    .resume 3, .answer 3 (.ok ()), .resume 3]

/-- The third of the others is told of the second channel only, and the second one finds the session
that the first one attached. -/
theorem audience_told_guests :
    let m := ((Machine.ofRegistry { available := [remoteProgramsChannel] }).run guestMoves).1
    let call : Move := .call (.connect remoteProgramsChannel 5)
    let later := guestConnecting ++ .call (.connect remoteProgramsChannel 6) :: guestNested
    let listed : List Subscriber := [.remotePrograms hostSession, .custom 7, .custom 8]
    let armed : Context :=
      ⟨remoteProgramsChannel, 5, some hostSession, some .remotePrograms, .awaitingHandshake⟩
    m.TellsAudience remoteProgramsChannel 5 listed later ∧
      (m.run (call :: guestConnecting)).1.TellsAudience remoteProgramsChannel 6
        (listed ++ [.custom 9]) guestNested ∧
      (m.record (Machine.showing? 3) (call :: later)).map Showing.seen
        <+: [⟨remoteProgramsChannel, 5, none, none, .channelConnected⟩, armed,
            { armed with session := some guestSession },
            { armed with session := some guestSession }].map some := by
  intro m call later listed armed
  have htold := audience_told [remoteProgramsChannel] guestMoves later remoteProgramsChannel 5
    (by decide)
  obtain ⟨houter, -, -, -, -, -, hseen, hinner⟩ := htold
  exact ⟨houter, hinner guestConnecting remoteProgramsChannel 6 guestNested rfl (by decide),
    hseen (by decide)⟩

end Guests

end RemotePrograms
