import RemotePrograms.Proofs.Channel.Apart
import RemotePrograms.Proofs.Channel.Locks

/-!
# `RemotePrograms.Proofs.Channel.Remaining`: the run that remains without other channels

Leave all operations for other channels out of a run, with the moves that carry them on. What
remains is a run again (`restrict`), in which operations and contexts have other numbers.
`Machine.view` is what the whole run shows of the remaining operations, in these numbers.

The machines of the two runs go on side by side. `Machine.Excerpt` says how: the registry of the one
is an excerpt of the registry of the other, our operations have come equally far on both sides, and
all others are busy with showing a channel. A move that is left out keeps this (`Excerpt.skip`), and
one that remains is made on both sides (`Excerpt.step_ours`). `channels_apart` is the outcome.
-/

set_option autoImplicit false

namespace RemotePrograms

/-! ### The run that remains -/

/-- Whether an operation is one for remote programs. -/
def Operation.isRemote (operation : Operation) : Bool :=
  decide (operation.name? = some remoteProgramsChannel)

/-- Whether a move goes on with what was begun by name, or begins something by name. -/
def Move.isNamed : Move → Bool
  | .call operation => operation.name?.isSome
  | _ => true

/-- The operation of this number is one for remote programs. -/
def IsOurs (called : List Operation) (id : ActivityId) : Prop :=
  (called.map Operation.isRemote)[id]? = some true

instance (called : List Operation) (id : ActivityId) : Decidable (IsOurs called id) :=
  inferInstanceAs (Decidable (_ = _))

/-- The number that an operation has among those for remote programs. -/
def ourNumber (called : List Operation) (id : ActivityId) : ActivityId :=
  place (called.map Operation.isRemote) id

/-- What remains of a move when all operations for other channels are left out. -/
def Move.restrict (called : List Operation) : Move → Option Move
  | .call operation => if operation.isRemote then some (.call operation) else none
  | .resume id => if IsOurs called id then some (.resume (ourNumber called id)) else none
  | .answer id reply =>
    if IsOurs called id then some (.answer (ourNumber called id) reply) else none

/-- What remains of a run. Operations are left out with all moves that carry them on. -/
def restrict (called : List Operation) : List Move → List Move
  | [] => []
  | move :: moves =>
    (move.restrict called).toList ++ restrict (called ++ move.operation?.toList) moves

/-- What an event looks like when all operations for other channels are left out. -/
def Event.restrict (called : List Operation) (f : ContextId → ContextId) : Event → Option Event
  | .contact id asked =>
    if IsOurs called id then some (.contact (ourNumber called id) (asked.renumber f)) else none
  | .returned id result =>
    if IsOurs called id then some (.returned (ourNumber called id) (result.map (Value.renumber f)))
    else none

/-- What a run shows when all operations for other channels are left out. -/
def Machine.view (called : List Operation) (m : Machine) : List Move → List Event
  | [] => []
  | move :: moves =>
    ((m.step move).2.bind (Event.restrict (called ++ move.operation?.toList)
      (m.step move).1.registry.place)).toList
      ++ (m.step move).1.view (called ++ move.operation?.toList) moves

/-- An event of one of our operations is left, with other numbers. -/
theorem Progress.restrict_event? {called : List Operation} {id : ActivityId}
    (hours : IsOurs called id) (f : ContextId → ContextId) (progress : Progress) :
    (progress.event? id).bind (Event.restrict called f)
      = (progress.renumber f).event? (ourNumber called id) := by
  cases progress with
  | continues activity => rfl
  | returned result => exact if_pos hours
  | waits contact activity => exact if_pos hours

/-- An operation for another channel shows nothing that remains. -/
theorem Progress.restrict_event?_of_not {called : List Operation} {id : ActivityId}
    (hours : ¬ IsOurs called id) (f : ContextId → ContextId) (progress : Progress) :
    (progress.event? id).bind (Event.restrict called f) = none := by
  cases progress with
  | continues activity => rfl
  | returned result => exact if_neg hours
  | waits contact activity => exact if_neg hours

/-- A move by name is a regular one. -/
theorem Move.isRegular_of_isNamed {move : Move} (h : move.isNamed = true) :
    move.isRegular = true := by
  cases move with
  | call operation =>
    cases operation with
    | call c request => cases h
    | _ => rfl
  | _ => rfl

/-- Operations that go by names put nobody but remote programs onto the list. -/
theorem Machine.onlyRemote_step {m : Machine} (h : OnlyRemote m.registry.subscribers) {move : Move}
    (hnamed : move.isNamed = true) : OnlyRemote (m.step move).1.registry.subscribers := by
  have hsame : ∀ {r : Registry}, m.registry.SameOffer r → OnlyRemote r.subscribers := by
    intro r hoffer
    rw [hoffer.subscribers_eq]
    exact h
  have hsteps := m.registry_step move
  generalize (m.step move).1.registry = r' at hsteps ⊢
  cases hsteps with
  | idle => exact h
  | call operation =>
    have hstarts := operation.starts m.registry
    generalize operation.start m.registry = stretch at hstarts ⊢
    cases hstarts with
    | loads hload =>
      obtain ⟨-, loaded, rfl, -⟩ := Registry.load_cases hload
      exact h
    | @registers session r' hload =>
      obtain ⟨-, loaded, rfl, -⟩ := Registry.load_cases hload
      intro subscriber hmem
      obtain hmem | hmem := List.mem_append.mp hmem
      · exact h subscriber hmem
      · exact ⟨session, List.mem_singleton.mp hmem⟩
    -- Somebody else would be put on the list here, but not by name.
    | subscribes => cases hnamed
    | closes hdisconnect =>
      obtain ⟨c, -, rfl⟩ := Option.map_eq_some_iff.mp hdisconnect
      exact h
    | handles => exact hsame (m.registry.confined_handle _ _ _).sameOffer
    | calls => cases hnamed
    | _ => exact h
  | continues _ hcontinues => exact hsame (.of_continues hcontinues)

/-! ### Numbers -/

/-- One of our operations has been called. -/
theorem IsOurs.lt_length {called : List Operation} {id : ActivityId} (h : IsOurs called id) :
    id < called.length := by
  have hlt := (List.getElem?_eq_some_iff.mp h).1
  rwa [List.length_map] at hlt

/-- Operations that are called later do not change which ones are ours. -/
theorem isOurs_append {called : List Operation} {id : ActivityId} (h : id < called.length)
    (more : List Operation) : IsOurs (called ++ more) id ↔ IsOurs called id := by
  unfold IsOurs
  rw [List.map_append, List.getElem?_append_left (by rwa [List.length_map])]

/-- Operations that are called later do not change the numbers of ours. -/
theorem ourNumber_append {called : List Operation} {id : ActivityId} (h : id ≤ called.length)
    (more : List Operation) : ourNumber (called ++ more) id = ourNumber called id := by
  unfold ourNumber
  rw [List.map_append]
  exact place_append (by rwa [List.length_map]) _

/-- The operation that was just called is ours if it is one for remote programs. -/
theorem isOurs_concat {called : List Operation} {operation : Operation} :
    IsOurs (called ++ [operation]) called.length ↔ operation.isRemote = true := by
  unfold IsOurs
  rw [List.map_append, List.getElem?_append_right (by simp)]
  simp

/-- The next number among ours goes up with each operation for remote programs. -/
theorem ourNumber_concat (called : List Operation) (operation : Operation) :
    ourNumber (called ++ [operation]) (called ++ [operation]).length
      = ourNumber called called.length + if operation.isRemote then 1 else 0 := by
  have hcount : ∀ called : List Operation, ourNumber called called.length
      = (called.map Operation.isRemote).count true := by
    intro called
    unfold ourNumber
    rw [← List.length_map Operation.isRemote, place_length]
  rw [hcount, hcount, List.map_append, List.count_append, List.map_singleton,
    List.count_singleton]
  cases operation.isRemote <;> rfl

/-- A context keeps its number among those for remote programs. -/
theorem Registry.place_of_changes {puts : Bool} {r r' : Registry} (h : r.Changes puts r')
    {c : ContextId} (hc : c ≤ r.contexts.length) : r'.place c = r.place c := by
  have htake : (r'.contexts.map Context.isRemote).take c
      = (r.contexts.map Context.isRemote).take c := by
    refine List.ext_getElem? fun i => ?_
    rw [List.getElem?_take, List.getElem?_take]
    split
    · rename_i hi
      have hlt := Nat.lt_of_lt_of_le hi hc
      obtain ⟨context', hcontext', hchange⟩ := h i _ (List.getElem?_eq_getElem hlt)
      rw [List.getElem?_map, List.getElem?_map, List.getElem?_eq_getElem hlt,
        show r'.contexts[i]? = some context' from hcontext']
      simp [Context.isRemote, hchange.name_eq]
    · rfl
  unfold place RemotePrograms.place
  rw [htake]

/-! ### Machines -/

namespace Machine

/-- Only calls take numbers. -/
theorem numbered_of_operation?_none (m : Machine) {move : Move} (h : move.operation? = none) :
    m.numbered move = m := by
  cases move with
  | call operation => cases h
  | _ => rfl

/-- What remains of a machine when all operations for other channels are left out. The rest of what
is known concerns the machine alone. -/
structure Excerpt (called : List Operation) (m m' : Machine) : Prop where
  registry : m.registry.Excerpt m'.registry
  nextActivity_eq : m'.nextActivity = ourNumber called called.length
  ours : ∀ id, IsOurs called id →
    m'.activity? (ourNumber called id)
      = (m.activity? id).map (Activity.renumber m.registry.place)
  others : ∀ id activity, ¬ IsOurs called id → m.activity? id = some activity →
    ∃ name c left, activity = .notifying name c left ∧ name ≠ remoteProgramsChannel ∧
      OnlyRemote left
  subscribers : OnlyRemote m.registry.subscribers
  tells : ∃ done, m.Tells called done
  consistent : m.Consistent
  keyed : m.IsKeyed
  keyed' : m'.IsKeyed

/-- What remains of a move: a machine that is an excerpt of the one behind the move, and what can be
seen of the event. -/
def Remains (called : List Operation) (m : Machine) (move : Move)
    (outcome : Machine × Option Event) : Prop :=
  (m.step move).1.Excerpt (called ++ move.operation?.toList) outcome.1 ∧
    outcome.2 = (m.step move).2.bind (Event.restrict
      (called ++ move.operation?.toList) (m.step move).1.registry.place)

variable {called : List Operation} {m m' : Machine} {id : ActivityId}

namespace Excerpt

/-- As many operations were called as numbers have been taken. -/
theorem length_eq (h : m.Excerpt called m') : called.length = m.nextActivity := by
  obtain ⟨done, htells⟩ := h.tells
  exact htells.length_eq

/-- A name stands for a context that bears it. -/
theorem bears (h : m.Excerpt called m') {name : String} {c : ContextId}
    (hchannel : m.registry.channel? name = some c) : m.registry.Bears name c := by
  obtain ⟨done, htells⟩ := h.tells
  exact htells.isRouted.named name c (Registry.mem_of_channel? hchannel)

/-- The channel that an activity connects bears the name it is to have. -/
theorem bears_of_shows (h : m.Excerpt called m') {activity : Activity}
    (hactivity : m.activity? id = some activity) {name : String} {c : ContextId}
    (hshows : activity.shows? = some (name, c)) : m.registry.Bears name c := by
  obtain ⟨done, htells⟩ := h.tells
  refine (htells.isRouted.shown id name c ?_).1
  unfold shows?
  rw [hactivity]
  exact hshows

/-- What one of our operations does concerns remote programs. -/
theorem isRemote (h : m.Excerpt called m') (hours : IsOurs called id) {activity : Activity}
    (hactivity : m.activity? id = some activity) : activity.IsRemote m.registry := by
  have hshows : ∀ name c, activity.shows? = some (name, c) → name = remoteProgramsChannel := by
    intro name c hshows
    obtain ⟨done, htells⟩ := h.tells
    obtain ⟨operation, hcalled, hmay⟩ := htells.stems id activity hactivity
    rw [hshows] at hmay
    obtain ⟨transport, rfl⟩ := hmay
    unfold IsOurs at hours
    rw [List.getElem?_map, hcalled] at hours
    have hname := of_decide_eq_true (Option.some.inj hours)
    exact Option.some.inj hname
  refine ⟨fun c hc => ?_, hshows⟩
  -- Only an armed context is opened, and only a remote one is armed.
  have hopens : ∀ o, activity.opening? = some o →
      ∃ context, m.registry.context? o.context = some context ∧
        context.name = remoteProgramsChannel := by
    intro o ho
    obtain ⟨⟨context, hcontext, hfits⟩, -⟩ := h.consistent.fits id activity o ⟨hactivity, ho⟩
    exact ⟨context, hcontext, hfits.isArmed.name_eq⟩
  have hshown : ∀ name c, activity.shows? = some (name, c) →
      ∃ context, m.registry.context? c = some context ∧
        context.name = remoteProgramsChannel := by
    intro name c hentry
    have hbears := h.bears_of_shows hactivity hentry
    rw [hshows name c hentry] at hbears
    exact hbears.context
  cases activity with
  | opening o left | sending o order left =>
    cases hc
    exact hopens o rfl
  | notifying name c' left | notified name c' left =>
    cases hc
    exact hshown name _ rfl
  | _ => cases hc

/-- The locks that are held are the same, for others need none. -/
theorem holds_eq (h : m.Excerpt called m') (session : SessionId) :
    m'.holds session = m.holds session := by
  rw [Bool.eq_iff_iff, h.keyed'.holds_iff, h.keyed.holds_iff]
  unfold lockOf?
  constructor
  · rintro ⟨number, hlock⟩
    obtain ⟨activity, hactivity, hlock⟩ := Option.bind_eq_some_iff.mp hlock
    have hlt := h.keyed'.lt_next hactivity
    -- Whatever is under way on the other side is one of our operations.
    rw [h.nextActivity_eq, ourNumber, ← List.length_map Operation.isRemote, place_length] at hlt
    obtain ⟨id, hours, rfl⟩ := exists_place hlt
    refine ⟨id, ?_⟩
    rw [show place _ id = ourNumber called id from rfl, h.ours id hours] at hactivity
    obtain ⟨before, hbefore, rfl⟩ := Option.map_eq_some_iff.mp hactivity
    rw [hbefore]
    rwa [Activity.lock?_renumber] at hlock
  · rintro ⟨id, hlock⟩
    obtain ⟨activity, hactivity, hlock⟩ := Option.bind_eq_some_iff.mp hlock
    by_cases hours : IsOurs called id
    · refine ⟨ourNumber called id, ?_⟩
      rw [h.ours id hours, hactivity]
      exact (Activity.lock?_renumber activity).trans hlock
    · -- The showing of a channel holds no lock.
      obtain ⟨name, c, left, rfl, -⟩ := h.others id activity hours hactivity
      cases hlock

variable {move : Move}

/-- What is known of the machine alone is known of it after a move too. -/
theorem of_step (h : m.Excerpt called m') (hnamed : move.isNamed = true) {next' : Machine}
    (hregistry : (m.step move).1.registry.Excerpt next'.registry)
    (hnext : next'.nextActivity = ourNumber (called ++ move.operation?.toList)
      (called ++ move.operation?.toList).length)
    (hours : ∀ id, IsOurs (called ++ move.operation?.toList) id →
      next'.activity? (ourNumber (called ++ move.operation?.toList) id)
        = ((m.step move).1.activity? id).map
          (Activity.renumber (m.step move).1.registry.place))
    (hothers : ∀ id activity, ¬ IsOurs (called ++ move.operation?.toList) id →
      (m.step move).1.activity? id = some activity →
      ∃ name c left, activity = .notifying name c left ∧ name ≠ remoteProgramsChannel ∧
        OnlyRemote left)
    (hkeyed : next'.IsKeyed) :
    (m.step move).1.Excerpt (called ++ move.operation?.toList) next' := by
  obtain ⟨done, htells⟩ := h.tells
  exact ⟨hregistry, hnext, hours, hothers, onlyRemote_step h.subscribers hnamed,
    ⟨_, htells.step move⟩, consistent_step h.consistent (Move.isRegular_of_isNamed hnamed),
    h.keyed.step move, hkeyed⟩

/-- One of our operations that the stretch does not belong to is the same on both sides. -/
theorem ours_of_ne (h : m.Excerpt called m') {stretch : Stretch}
    (hstep : m.step move = (m.numbered move).enter id stretch) {other : ActivityId}
    (hne : other ≠ id) (hlt : other < called.length)
    (hours : IsOurs (called ++ move.operation?.toList) other) :
    m'.activity? (ourNumber (called ++ move.operation?.toList) other)
      = ((m.step move).1.activity? other).map
        (Activity.renumber (m.step move).1.registry.place) := by
  have hchanges := changes_step m move
  rw [isOurs_append hlt] at hours
  rw [ourNumber_append (Nat.le_of_lt hlt), h.ours other hours]
  rw [hstep] at hchanges ⊢
  rw [activity?_enter_ne _ _ hne, activity?_numbered]
  refine Option.map_congr fun activity hactivity => ?_
  refine Activity.renumber_congr fun c hc => ?_
  -- Its context was there before the move, so its number is the same as before.
  obtain ⟨context, hcontext, -⟩ := (h.isRemote hours hactivity).context c hc
  exact (Registry.place_of_changes hchanges
    (Nat.le_of_lt (List.getElem?_eq_some_iff.mp hcontext).1)).symm

/-- An operation of somebody else that the stretch does not belong to is as before. -/
theorem others_of_ne (h : m.Excerpt called m') {stretch : Stretch}
    (hstep : m.step move = (m.numbered move).enter id stretch) {other : ActivityId}
    (hne : other ≠ id) {activity : Activity}
    (hours : ¬ IsOurs (called ++ move.operation?.toList) other)
    (hactivity : (m.step move).1.activity? other = some activity) :
    ∃ name c left, activity = .notifying name c left ∧ name ≠ remoteProgramsChannel ∧
      OnlyRemote left := by
  rw [hstep, activity?_enter_ne _ _ hne, activity?_numbered] at hactivity
  refine h.others other activity (fun hold => hours ?_) hactivity
  exact (isOurs_append hold.lt_length _).mpr hold

/-- A stretch of one of our operations is made on both sides. -/
theorem enter_ours (h : m.Excerpt called m') (hnamed : move.isNamed = true)
    {stretch stretch' : Stretch} (hstretch : stretch.Excerpt stretch')
    (hstep : m.step move = (m.numbered move).enter id stretch) (move' : Move)
    (hstep' : m'.step move' = (m'.numbered move').enter
      (ourNumber (called ++ move.operation?.toList) id) stretch')
    (hnext : (m'.numbered move').nextActivity = ourNumber (called ++ move.operation?.toList)
      (called ++ move.operation?.toList).length)
    (hours : IsOurs (called ++ move.operation?.toList) id)
    (hnew : ∀ other, other < (called ++ move.operation?.toList).length → other ≠ id →
      other < called.length) :
    m.Remains called move (m'.step move') := by
  refine ⟨h.of_step hnamed ?_ ?_ (fun other hother => ?_)
    (fun other activity hother hactivity => ?_) (h.keyed'.step move'), ?_⟩
  · rw [hstep, hstep', registry_enter, registry_enter]
    exact hstretch.registry
  · rw [hstep', nextActivity_enter]
    exact hnext
  · by_cases hid : other = id
    · subst hid
      rw [hstep, hstep', activity?_enter_self, activity?_enter_self, hstretch.progress_eq,
        Progress.activity?_renumber, registry_enter]
    · -- Two of our operations have different numbers on the other side too.
      have hne : ourNumber (called ++ move.operation?.toList) other
          ≠ ourNumber (called ++ move.operation?.toList) id :=
        fun heq => hid (place_inj hother hours heq)
      rw [hstep', activity?_enter_ne _ _ hne, activity?_numbered]
      exact h.ours_of_ne hstep hid (hnew other hother.lt_length hid) hother
  · by_cases hid : other = id
    · subst hid
      exact absurd hours hother
    · exact h.others_of_ne hstep hid hother hactivity
  · rw [hstep, hstep', event_enter, event_enter, registry_enter,
      Progress.restrict_event? hours, hstretch.progress_eq]

/-- A stretch for another channel is made on one side only. -/
theorem enter_others (h : m.Excerpt called m') (hnamed : move.isNamed = true) {stretch : Stretch}
    (hapart : m.registry.Apart stretch)
    (hstep : m.step move = (m.numbered move).enter id stretch)
    (hnext : ourNumber (called ++ move.operation?.toList)
      (called ++ move.operation?.toList).length = ourNumber called called.length)
    (hours : ¬ IsOurs (called ++ move.operation?.toList) id)
    (hnew : ∀ other, other < (called ++ move.operation?.toList).length → other ≠ id →
      other < called.length) :
    m.Remains called move (m', none) := by
  refine ⟨h.of_step hnamed ?_ (h.nextActivity_eq.trans hnext.symm) (fun other hother => ?_)
    (fun other activity hother hactivity => ?_) h.keyed', ?_⟩
  · rw [hstep, registry_enter]
    exact hapart.excerpt _ h.registry
  · have hid : other ≠ id := fun hid => hours (hid ▸ hother)
    exact h.ours_of_ne hstep hid (hnew other hother.lt_length hid) hother
  · by_cases hid : other = id
    · subst hid
      rw [hstep, activity?_enter_self] at hactivity
      -- All that can be left is a channel with another name that is still being shown.
      have hprogress := hapart.progress
      generalize stretch.2 = progress at hactivity hprogress
      cases hprogress with
      | returned result => cases hactivity
      | continues c hname hleft =>
        cases hactivity
        exact ⟨_, c, _, rfl, hname, hleft⟩
    · exact h.others_of_ne hstep hid hother hactivity
  · rw [hstep, event_enter, Progress.restrict_event?_of_not hours]

/-- A move that does nothing does nothing on the other side either. -/
theorem idle (h : m.Excerpt called m') (hstep : m.step move = (m, none))
    (hoperation : move.operation? = none) :
    m.Remains called move (m', none) := by
  unfold Remains
  rw [hstep, hoperation, Option.toList_none, List.append_nil]
  exact ⟨h, rfl⟩

/-- What a move does that is left out: nothing, or a stretch for another channel. -/
theorem step_others (h : m.Excerpt called m') (hnamed : move.isNamed = true)
    (hnone : move.restrict called = none) :
    (m.step move = (m, none) ∧ move.operation? = none) ∨
      ∃ id stretch, m.step move = (m.numbered move).enter id stretch ∧
        m.registry.Apart stretch ∧
        ourNumber (called ++ move.operation?.toList) (called ++ move.operation?.toList).length
          = ourNumber called called.length ∧
        ¬ IsOurs (called ++ move.operation?.toList) id ∧
        ∀ other, other < (called ++ move.operation?.toList).length → other ≠ id →
          other < called.length := by
  cases move with
  | call operation =>
    have hother : operation.isRemote = false := by
      cases hremote : operation.isRemote with
      | false => rfl
      | true => simp [Move.restrict, hremote] at hnone
    obtain ⟨name, hname⟩ := Option.isSome_iff_exists.mp hnamed
    have hne : name ≠ remoteProgramsChannel := by
      rintro rfl
      simp [Operation.isRemote, hname] at hother
    refine .inr ⟨m.nextActivity, _, step_call m operation,
      Registry.apart_start h.consistent.orderly (fun name c => h.bears) h.subscribers hname hne,
      ?_, ?_, fun other hlt hid => ?_⟩
    · rw [show (Move.call operation).operation?.toList = [operation] from rfl,
        ourNumber_concat, hother]
      rfl
    · rw [← h.length_eq]
      exact fun hours => by simpa [hother] using isOurs_concat.mp hours
    · rw [← h.length_eq] at hid
      rw [show (Move.call operation).operation?.toList = [operation] from rfl,
        List.length_append] at hlt
      exact Nat.lt_of_le_of_ne (Nat.le_of_lt_succ hlt) hid
  | resume id =>
    have hours : ¬ IsOurs called id := fun hours => by simp [Move.restrict, hours] at hnone
    obtain ⟨activity, hactivity, -, hstep⟩ | ⟨-, hstep⟩ := resume_cases m id
    · obtain ⟨name, c, left, rfl, hne, hleft⟩ := h.others id activity hours hactivity
      refine .inr ⟨id, _, hstep,
        Registry.apart_resume _ hne hleft (h.bears_of_shows hactivity rfl), ?_⟩
      simp only [Move.operation?, Option.toList_none, List.append_nil]
      exact ⟨trivial, hours, fun other hlt _ => hlt⟩
    · exact .inl ⟨hstep, rfl⟩
  | answer id reply =>
    have hours : ¬ IsOurs called id := fun hours => by simp [Move.restrict, hours] at hnone
    obtain ⟨activity, hactivity, hout, -⟩ | ⟨-, hstep⟩ := answer_cases m id reply
    · -- Nobody is asked for another channel, so there is nothing to reply to.
      obtain ⟨name, c, left, rfl, -⟩ := h.others id activity hours hactivity
      cases hout
    · exact .inl ⟨hstep, rfl⟩

/-- What is left of one of our operations is left of it on the other side. -/
theorem activity?_ours (h : m.Excerpt called m') (hours : IsOurs called id) {activity : Activity}
    (hactivity : m.activity? id = some activity) :
    m'.activity? (ourNumber called id) = some (activity.renumber m.registry.place) := by
  rw [h.ours id hours, hactivity]
  rfl

/-- One of our operations that a move does not fit, since it waits for the outside or since it does
not, is not fitted by the move on the other side either. -/
theorem isOutside_ours (h : m.Excerpt called m') (hours : IsOurs called id) {out : Bool}
    (hidle : ∀ activity, m.activity? id = some activity → activity.isOutside = out)
    {activity : Activity} (hactivity : m'.activity? (ourNumber called id) = some activity) :
    activity.isOutside = out := by
  rw [h.ours id hours] at hactivity
  obtain ⟨before, hbefore, rfl⟩ := Option.map_eq_some_iff.mp hactivity
  exact (Activity.isOutside_renumber before).trans (hidle before hbefore)

/-- One of our operations goes on, on both sides. -/
theorem goes_on (h : m.Excerpt called m') (hnamed : move.isNamed = true)
    (hours : IsOurs called id) {stretch stretch' : Stretch} (hstretch : stretch.Excerpt stretch')
    {move' : Move} (hmove : move.operation? = none) (hmove' : move'.operation? = none)
    (hstep : m.step move = m.enter id stretch)
    (hstep' : m'.step move' = m'.enter (ourNumber called id) stretch') :
    m.Remains called move (m'.step move') := by
  have hcalled : called ++ move.operation?.toList = called := by
    rw [hmove, Option.toList_none, List.append_nil]
  have hnumbered : m.step move = (m.numbered move).enter id stretch := by
    rw [numbered_of_operation?_none m hmove]
    exact hstep
  have hnumbered' := numbered_of_operation?_none m' hmove'
  refine h.enter_ours hnamed hstretch hnumbered move' ?_ ?_ ?_ fun other hlt _ => ?_
  · rw [hcalled, hnumbered']
    exact hstep'
  · rw [hcalled, hnumbered']
    exact h.nextActivity_eq
  · rw [hcalled]
    exact hours
  · rwa [hcalled] at hlt

/-- A move that remains is made on both sides. -/
theorem step_ours (h : m.Excerpt called m') (hnamed : move.isNamed = true) {move' : Move}
    (hsome : move.restrict called = some move') :
    m.Remains called move (m'.step move') := by
  have hidle : m.step move = (m, none) → move.operation? = none → m'.step move' = (m', none) →
      m.Remains called move (m'.step move') := by
    intro hstep hmove hstep'
    rw [hstep']
    exact h.idle hstep hmove
  cases move with
  | call operation =>
    cases hremote : operation.isRemote with
    | false => simp [Move.restrict, hremote] at hsome
    | true =>
      have heq : move' = .call operation := by simpa [Move.restrict, hremote] using hsome.symm
      subst heq
      have hname := of_decide_eq_true hremote
      have hlength := h.length_eq
      refine h.enter_ours hnamed (h.registry.start (fun c => h.bears) hname)
        (step_call m operation) _ ?_ ?_ ?_ fun other hlt hid => ?_
      · rw [step_call, ← hlength, ourNumber_append (Nat.le_refl _), ← h.nextActivity_eq]
      · show m'.nextActivity + 1 = _
        rw [show (Move.call operation).operation?.toList = [operation] from rfl,
          ourNumber_concat, hremote, h.nextActivity_eq]
        rfl
      · rw [← hlength]
        exact isOurs_concat.mpr hremote
      · rw [← hlength] at hid
        rw [show (Move.call operation).operation?.toList = [operation] from rfl,
          List.length_append] at hlt
        exact Nat.lt_of_le_of_ne (Nat.le_of_lt_succ hlt) hid
  | resume id =>
    by_cases hours : IsOurs called id
    · have heq : move' = .resume (ourNumber called id) := by
        simpa [Move.restrict, hours] using hsome.symm
      subst heq
      obtain ⟨activity, hactivity, hout, hstep⟩ | ⟨hwaits, hstep⟩ := resume_cases m id
      · -- The same locks are free, so a record is held back on both sides or on neither.
        have hfree : (fun session => !m'.holds session) = fun session => !m.holds session := by
          funext session
          rw [h.holds_eq]
        have hstep' := step_resume (h.activity?_ours hours hactivity)
          ((Activity.isOutside_renumber activity).trans hout)
        rw [hfree] at hstep'
        exact h.goes_on hnamed hours (h.registry.resume _ (h.isRemote hours hactivity))
          rfl rfl hstep hstep'
      · exact hidle hstep rfl (step_resume_idle fun _ => h.isOutside_ours hours hwaits)
    · simp [Move.restrict, hours] at hsome
  | answer id reply =>
    by_cases hours : IsOurs called id
    · have heq : move' = .answer (ourNumber called id) reply := by
        simpa [Move.restrict, hours] using hsome.symm
      subst heq
      obtain ⟨activity, hactivity, hout, hstep⟩ | ⟨hgoes, hstep⟩ := answer_cases m id reply
      · have hstep' := step_answer reply (h.activity?_ours hours hactivity)
          ((Activity.isOutside_renumber activity).trans hout)
        exact h.goes_on hnamed hours (h.registry.answer reply (h.isRemote hours hactivity))
          rfl rfl hstep hstep'
      · exact hidle hstep rfl (step_answer_idle reply fun _ => h.isOutside_ours hours hgoes)
    · simp [Move.restrict, hours] at hsome

/-- A move that is left out changes nothing of what remains. -/
theorem skip (h : m.Excerpt called m') (hnamed : move.isNamed = true)
    (hnone : move.restrict called = none) :
    m.Remains called move (m', none) := by
  obtain ⟨hstep, hoperation⟩ | ⟨id, stretch, hstep, hapart, hnext, hours, hnew⟩ :=
    h.step_others hnamed hnone
  · exact h.idle hstep hoperation
  · exact h.enter_others hnamed hapart hstep hnext hours hnew

/-- What remains of a run does what the run shows of it. -/
theorem run (h : m.Excerpt called m') (moves : List Move)
    (hnamed : ∀ move ∈ moves, move.isNamed = true) :
    (m.run moves).1.Excerpt (called ++ moves.filterMap Move.operation?)
        (m'.run (RemotePrograms.restrict called moves)).1 ∧
      (m'.run (RemotePrograms.restrict called moves)).2 = m.view called moves := by
  induction moves generalizing called m m' with
  | nil =>
    rw [List.filterMap_nil, List.append_nil]
    exact ⟨h, rfl⟩
  | cons move moves ih =>
    have hmove := hnamed move List.mem_cons_self
    have hmoves : ∀ other ∈ moves, other.isNamed = true :=
      fun other hother => hnamed other (List.mem_cons_of_mem _ hother)
    -- A move is skipped on the other side or made there as well.
    rw [Move.operations_cons, ← List.append_assoc, RemotePrograms.restrict, view]
    cases hrestrict : move.restrict called with
    | none =>
      obtain ⟨hexcerpt, hevent⟩ := h.skip hmove hrestrict
      rw [← hevent]
      exact ih hexcerpt hmoves
    | some move' =>
      obtain ⟨hexcerpt, hevent⟩ := h.step_ours hmove hrestrict
      obtain ⟨hlast, hevents⟩ := ih hexcerpt hmoves
      refine ⟨hlast, ?_⟩
      rw [← hevent, ← hevents]
      rfl

end Excerpt

/-- At the start nothing was called, and each side is an excerpt of the other. -/
theorem excerpt_ofRegistry (available : List String) :
    (ofRegistry { available }).Excerpt [] (ofRegistry { available }) where
  registry := ⟨rfl, rfl, rfl, rfl, rfl⟩
  nextActivity_eq := rfl
  ours id h := by cases h
  others id activity _ h := by cases h
  subscribers subscriber h := by cases h
  tells := ⟨[], tells_ofRegistry available⟩
  consistent := consistent_ofRegistry available
  keyed := isKeyed_ofRegistry _
  keyed' := isKeyed_ofRegistry _

end Machine

/-- What remains of the beginning of a run is the beginning of what remains of it. -/
theorem restrict_append (called : List Operation) (moves later : List Move) :
    restrict called (moves ++ later) = restrict called moves
      ++ restrict (called ++ moves.filterMap Move.operation?) later := by
  induction moves generalizing called with
  | nil =>
    rw [List.filterMap_nil, List.append_nil]
    rfl
  | cons move moves ih =>
    rw [List.cons_append, restrict, restrict, ih, Move.operations_cons, List.append_assoc,
      List.append_assoc]

/-! ### The property -/

/-- Other channels do not interfere with the one for remote programs. Take any run of operations
that go by names, in which only remote programs register for new channels. Leave out every operation
for another channel, with the moves that carry it on. The run that remains shows what the whole run
shows of the other operations, with the numbers that they and their contexts get in it: each of them
returns the same, sends the same records, and ends the same sessions. Behind it the contexts for
remote programs are the same, in the same order, with the same phases and sessions. The name stands
for the same context and has support in the one if in the other, and the same locks are held. All
this is so behind every part of the run, for what remains of it is a part of what remains of the
whole.

And an operation for another channel asks nothing of the outside, so it sends no record and ends no
session. It gives no context a session or a handler. Whatever is handed to another channel that is
connected is dropped, and that is a success. -/
theorem channels_apart (available : List String) (moves : List Move)
    (hmoves : ∀ move ∈ moves, move.isNamed = true) :
    let start : Machine := .ofRegistry { available }
    let called := moves.filterMap Move.operation?
    let m := (start.run moves).1
    let m' := (start.run (restrict [] moves)).1
    ((start.run (restrict [] moves)).2 = start.view [] moves ∧
      m'.registry.contexts = m.registry.contexts.filter Context.isRemote ∧
      m'.registry.channel? remoteProgramsChannel
        = (m.registry.channel? remoteProgramsChannel).map m.registry.place ∧
      m'.registry.isLoaded remoteProgramsChannel = m.registry.isLoaded remoteProgramsChannel ∧
      (∀ session, m'.holds session = m.holds session) ∧
      ∀ later, restrict [] moves <+: restrict [] (moves ++ later)) ∧
    (∀ move, move.isNamed = true → move.restrict called = none →
      (∀ id contact, (m.step move).2 ≠ some (.contact id contact)) ∧
      ∀ c, (m.step move).1.session? c = m.session? c ∧
        ((m.step move).1.registry.context? c).bind Context.handler
          = (m.registry.context? c).bind Context.handler) ∧
    ∀ name c order, name ≠ remoteProgramsChannel → m.registry.channel? name = some c →
      (m.step (.call (.dispatch name order))).1.registry = m.registry ∧
      (m.step (.call (.dispatch name order))).2
        = some (.returned m.nextActivity (.ok .done)) := by
  intro start called m m'
  obtain ⟨hexcerpt, hevents⟩ := (Machine.excerpt_ofRegistry available).run moves hmoves
  refine ⟨⟨hevents, hexcerpt.registry.contexts_eq, hexcerpt.registry.channel?_eq,
      hexcerpt.registry.isLoaded_eq, hexcerpt.holds_eq, fun later => ?_⟩,
    fun move hnamed hnone => ?_, fun name c order hother hchannel => ?_⟩
  · rw [restrict_append]
    exact List.prefix_append _ _
  · -- What is left out of the run does nothing, or it stays apart.
    obtain ⟨hstep, -⟩ | ⟨id, stretch, hstep, hapart, -⟩ := hexcerpt.step_others hnamed hnone
    · rw [show m.step move = (m, none) from hstep]
      exact ⟨fun _ _ hevent => (by cases hevent), fun _ => ⟨rfl, rfl⟩⟩
    · rw [show m.step move = _ from hstep]
      refine ⟨fun id contact hevent => ?_, fun c => ⟨?_, ?_⟩⟩
      · rw [Machine.event_enter] at hevent
        have hprogress := hapart.progress
        generalize stretch.2 = progress at hevent hprogress
        cases hprogress with
        | returned result => cases hevent
        | continues c hname hleft => cases hevent
      · unfold Machine.session?
        rw [Machine.registry_enter]
        exact hapart.session?_eq c
      · rw [Machine.registry_enter]
        exact hapart.handler?_eq c
  · have hstart : (Operation.dispatch name order).start m.registry = m.registry.done :=
      Registry.start_dispatch_of_other hexcerpt.consistent.orderly (fun name c => hexcerpt.bears)
        hother hchannel order
    rw [Machine.step_call, Machine.registry_enter, Machine.event_enter, hstart]
    exact ⟨rfl, rfl⟩

section Mixed

/-- A channel for remote programs and another one are used in turns, and the first record of the
opening is not sent. -/
def mixedMoves : List Move :=
  [.call (.loadRemotePrograms ⟨7, {}⟩), .call (.load "cliprdr"), .call (.connect "cliprdr" 4),
    .call (.connect remoteProgramsChannel 5), .resume 2, .resume 3, .resume 2, .resume 3,
    .call (.dispatch "cliprdr" (.handshake ⟨0⟩)),
    .call (.dispatch remoteProgramsChannel (.handshake ⟨0⟩)), .resume 5,
    .call (.disconnect "cliprdr"), .answer 5 (.error (.notAllowed "no connection"))]

/-- Without the other channel the same happens, on a context that is then the first one. -/
theorem channels_apart_mixed :
    let start : Machine := .ofRegistry { available := [remoteProgramsChannel, "cliprdr"] }
    restrict [] mixedMoves
        = [.call (.loadRemotePrograms ⟨7, {}⟩), .call (.connect remoteProgramsChannel 5),
          .resume 1, .resume 1, .call (.dispatch remoteProgramsChannel (.handshake ⟨0⟩)),
          .resume 2, .answer 2 (.error (.notAllowed "no connection"))] ∧
      (start.run (restrict [] mixedMoves)).2
        = [.returned 0 (.ok (.flag true)), .returned 1 (.ok (.context 0)),
          .contact 2 (.send 0 5 (.handshake .client)),
          .returned 2 (.error (.notAllowed "no connection"))] ∧
      (start.run (restrict [] mixedMoves)).1.registry.contexts
        = [⟨remoteProgramsChannel, 5, some ⟨7, {}⟩, some .remotePrograms, .failed⟩] := by
  intro start
  obtain ⟨⟨hevents, hcontexts, -⟩, -⟩ :=
    channels_apart [remoteProgramsChannel, "cliprdr"] mixedMoves (by decide)
  exact ⟨rfl, hevents.trans rfl, hcontexts.trans rfl⟩

end Mixed

end RemotePrograms
