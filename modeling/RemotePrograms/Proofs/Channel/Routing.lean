import RemotePrograms.Proofs.Channel.Changes
import RemotePrograms.Proofs.Channel.Connecting
import RemotePrograms.Proofs.Channel.Serving

/-!
# `RemotePrograms.Proofs.Channel.Routing`: which context a name stands for

The registry keeps three things that runs change: what is loaded, which contexts there are, and
which context a name stands for. `Registry.Extends` says how the first one grows. The third one is
told from outside. `completions` lists the operations of a run that have returned, in the order of
their returns, and `standing?` reads off this list what a name must stand for: the context that was
connected last, unless the name was disconnected since. `Tells.run` says that the registry agrees.

An operation that connects a channel takes many stretches, and others may connect the same name
meanwhile. Its context has no name before the last of them (`IsRouted.shown`), and the list knows
nothing of an operation that has not returned.

`registry_routes` puts the parts together, and adds what an order for a name comes to: all of its
stretches stay with the context that the name stood for.
-/

set_option autoImplicit false

namespace RemotePrograms

/-! ### What is loaded -/

namespace Registry

variable {r r' : Registry} {name : String} {c : ContextId}

/-- What can be supported stays the same, and what is loaded grows by what can be and is not yet. -/
structure Extends (r r' : Registry) : Prop where
  available_eq : r'.available = r.available
  loaded_cases : r'.loaded = r.loaded ∨
    ∃ name, name ∈ r.available ∧ name ∉ r.loaded ∧ r'.loaded = r.loaded ++ [name]

/-- What stays the same is extended by nothing. -/
theorem SameOffer.extends (h : r.SameOffer r') : r.Extends r' :=
  ⟨h.available_eq, .inl h.loaded_eq⟩

/-- Loading adds one name to what is loaded. -/
theorem extends_load (h : r.load name = .ok r') : r.Extends r' := by
  unfold load at h
  split at h
  · rename_i havailable
    split at h
    · cases h
      exact ⟨rfl, .inl rfl⟩
    · rename_i hloaded
      cases h
      exact ⟨rfl, .inr ⟨name, by simpa using havailable, by simpa [isLoaded] using hloaded, rfl⟩⟩
  · cases h

/-- Only loading support changes what is loaded. -/
theorem extends_start (r : Registry) (operation : Operation) :
    r.Extends (operation.start r).1 := by
  have hstarts := operation.starts r
  generalize operation.start r = stretch at hstarts ⊢
  cases hstarts with
  | loads hload => exact extends_load hload
  | registers hload =>
    have hextends := extends_load hload
    exact ⟨hextends.available_eq, hextends.loaded_cases⟩
  | closes hdisconnect =>
    obtain ⟨id, -, rfl⟩ := Option.map_eq_some_iff.mp hdisconnect
    exact ⟨rfl, .inl rfl⟩
  | handles => exact (r.confined_handle _ _ _).sameOffer.extends
  | calls => exact (r.confined_call _ _ _).sameOffer.extends
  | _ => exact ⟨rfl, .inl rfl⟩

/-- What is loaded stays loaded, in its order. -/
theorem Extends.loaded_grows (h : r.Extends r') : r.loaded <+: r'.loaded := by
  obtain hsame | ⟨name, -, -, hmore⟩ := h.loaded_cases
  · exact ⟨[], (List.append_nil _).trans hsame.symm⟩
  · exact ⟨[name], hmore.symm⟩

/-- What is loaded was available, and each name is in the list once. -/
structure IsOffer (available : List String) (r : Registry) : Prop where
  available_eq : r.available = available
  nodup : r.loaded.Nodup
  subset : r.loaded ⊆ available

/-- Whatever extends an offer is an offer too. -/
theorem IsOffer.extends {available : List String} (h : r.IsOffer available)
    (hextends : r.Extends r') : r'.IsOffer available := by
  refine ⟨hextends.available_eq.trans h.available_eq, ?_, ?_⟩
  · obtain hsame | ⟨name, -, hnew, hmore⟩ := hextends.loaded_cases
    · rw [hsame]
      exact h.nodup
    · rw [hmore]
      refine List.nodup_append.mpr ⟨h.nodup, by simp, fun other hother last hlast heq => ?_⟩
      rw [List.mem_singleton.mp hlast] at heq
      exact hnew (heq ▸ hother)
  · obtain hsame | ⟨name, havailable, -, hmore⟩ := hextends.loaded_cases
    · rw [hsame]
      exact h.subset
    · rw [hmore]
      rw [h.available_eq] at havailable
      exact List.append_subset.mpr ⟨h.subset, by simpa using havailable⟩

end Registry

namespace Machine

variable {m : Machine}

/-- No move takes support away. -/
theorem extends_step (m : Machine) (move : Move) :
    m.registry.Extends (m.step move).1.registry := by
  have hsteps := m.registry_step move
  generalize (m.step move).1.registry = r' at hsteps ⊢
  cases hsteps with
  | idle => exact (Registry.SameOffer.refl _).extends
  | call operation => exact Registry.extends_start m.registry operation
  | continues _ hcontinues => exact (Registry.SameOffer.of_continues hcontinues).extends

/-- What is loaded was available, in the whole of a run. -/
theorem isOffer_run {available : List String} (h : m.registry.IsOffer available)
    (moves : List Move) : (m.run moves).1.registry.IsOffer available :=
  run_induction (P := fun m => m.registry.IsOffer available) h
    fun m hm move _ => hm.extends (extends_step m move)

/-- In a run, what is loaded stays loaded. -/
theorem loaded_grows_run (m : Machine) (moves : List Move) :
    m.registry.loaded <+: (m.run moves).1.registry.loaded :=
  run_induction (P := fun later => m.registry.loaded <+: later.registry.loaded) List.prefix_rfl
    fun later hprefix move _ => hprefix.trans (extends_step later move).loaded_grows

end Machine

/-! ### What has returned -/

/-- An operation that has returned, and what it returned. -/
abbrev Completion := Operation × Result

namespace Completion

/-- Whether it settles what a name stands for: it connected a channel of this name, or it was to
take one away. -/
def settles (name : String) : Completion → Bool
  | (.connect other _, .ok _) => other == name
  | (.disconnect other, _) => other == name
  | _ => false

/-- The context that was connected. -/
def context? : Completion → Option ContextId
  | (.connect _ _, .ok (.context c)) => some c
  | _ => none

end Completion

/-- What a name stands for by what has returned: the last thing to settle it counts. -/
def standing? (name : String) (done : List Completion) : Option ContextId :=
  (done.reverse.find? (Completion.settles name)).bind Completion.context?

/-- What returned last decides on the name if it settles it, or else what returned before. -/
theorem standing?_concat (name : String) (done : List Completion) (entry : Completion) :
    standing? name (done ++ [entry])
      = if entry.settles name then entry.context? else standing? name done := by
  unfold standing?
  rw [List.reverse_append, List.reverse_singleton, List.singleton_append, List.find?_cons]
  cases entry.settles name with
  | true => rfl
  | false => rfl

/-- The operation that a move begins. -/
def Move.operation? : Move → Option Operation
  | .call operation => some operation
  | _ => none

/-- No operation begins with a move that carries an activity on. -/
theorem Move.operation?_of_activity? {move : Move} {id : ActivityId}
    (hmove : move.activity? = some id) : move.operation? = none := by
  cases move with
  | call operation => cases hmove
  | resume other | answer other reply => rfl

/-- The operations that a run begins are that of its first move and those of the others. -/
theorem Move.operations_cons (move : Move) (moves : List Move) :
    (move :: moves).filterMap Move.operation?
      = move.operation?.toList ++ moves.filterMap Move.operation? := by
  rw [List.filterMap_cons]
  cases move.operation? <;> rfl

/-- What an event shows to have returned. The operations that were called so far have the numbers of
their places. -/
def Event.completion? (called : List Operation) : Event → Option Completion
  | .returned id result => called[id]?.map fun operation => (operation, result)
  | .contact _ _ => none

/-- What returns in a run, in the order of the returns. -/
def Machine.completions (called : List Operation) (m : Machine) : List Move → List Completion
  | [] => []
  | move :: moves =>
    ((m.step move).2.bind (Event.completion? (called ++ move.operation?.toList))).toList
      ++ completions (called ++ move.operation?.toList) (m.step move).1 moves

/-- What has returned after a stretch of an operation. -/
def Progress.completion? (operation : Operation) : Progress → Option Completion
  | .returned result => some (operation, result)
  | _ => none

/-- The channel that an activity connects: its name and its context. -/
def Activity.shows? : Activity → Option (String × ContextId)
  | notifying name c _ | notified name c _ => some (name, c)
  | _ => none

/-- Whether this can be left of an operation: a channel is shown to its subscribers by an operation
that connects it, and what shows none settles no name when it returns. -/
def Operation.MayShow (operation : Operation) : Option (String × ContextId) → Prop
  | some (name, _) => ∃ transport, operation = .connect name transport
  | none => ∀ name result, Completion.settles name (operation, result) = false

/-! ### Names -/

namespace Registry

variable {r r' : Registry} {name : String} {c : ContextId}

/-- The channel of this name has support, and the context has the name. -/
structure Bears (r : Registry) (name : String) (c : ContextId) : Prop where
  loaded : name ∈ r.loaded
  context : ∃ context, r.context? c = some context ∧ context.name = name

/-- A context keeps its name, and what has support keeps it. -/
theorem Bears.mono {puts : Bool} (h : r.Bears name c) (hloaded : r.loaded <+: r'.loaded)
    (hchanges : r.Changes puts r') : r'.Bears name c := by
  refine ⟨hloaded.subset h.loaded, ?_⟩
  obtain ⟨context, hcontext, hname⟩ := h.context
  obtain ⟨context', hcontext', hchange⟩ := hchanges c context hcontext
  exact ⟨context', hcontext', hchange.name_eq.trans hname⟩

/-- A context that bears a name is not the next one. -/
theorem Bears.ne_nextContext (h : r.Bears name c) : c ≠ r.nextContext := by
  rintro rfl
  obtain ⟨context, hcontext, -⟩ := h.context
  rw [context?_nextContext] at hcontext
  cases hcontext

/-- The name stands for the new channel, and all other names stand for what they did. -/
theorem channel?_publish (r : Registry) (name : String) (c : ContextId) (other : String) :
    (r.publish name c).channel? other = if other = name then some c else r.channel? other := by
  show ((name, c) :: r.connected.filter (·.1 ≠ name)).lookup other = _
  rw [List.lookup_cons, lookup_filter_ne]
  by_cases hother : other = name
  · simp [hother]
  · have hbeq : (other == name) = false := by simpa using hother
    rw [hbeq, if_neg hother, if_neg hother]
    rfl

/-- The name stands for nothing, and all other names stand for what they did. -/
theorem channel?_disconnect (h : r.disconnect name = some r') (other : String) :
    r'.channel? other = if other = name then none else r.channel? other := by
  obtain ⟨c, -, rfl⟩ := Option.map_eq_some_iff.mp h
  exact lookup_filter_ne r.connected name other

/-- What a stretch of an operation does to the names, if it showed this channel before. It leaves
them as they are, or it begins to connect a channel, or it ends that, or it takes a channel away. -/
inductive Wires (r : Registry) (operation : Operation) (shown : Option (String × ContextId)) :
    Stretch → Prop where
  | keeps {stretch : Stretch} : stretch.1.connected = r.connected →
      stretch.2.activity?.bind Activity.shows? = shown →
      (∀ activity, stretch.2.activity? = some activity → operation.MayShow activity.shows?) →
      (∀ name result, stretch.2 = .returned result →
        Completion.settles name (operation, result) = true →
        r.channel? name = Completion.context? (operation, result)) →
      Wires r operation shown stretch
  | begins {name : String} {transport : TransportId} : operation = .connect name transport →
      shown = none → r.isLoaded name = true →
      Wires r operation shown (r.create { name, transport, phase := .channelConnected },
        .continues (.notifying name r.nextContext r.subscribers))
  | publishes {name : String} {transport : TransportId} {c : ContextId} :
      operation = .connect name transport → shown = some (name, c) →
      Wires r operation shown (r.publish name c, .returned (.ok (.context c)))
  | closes {name : String} {r' : Registry} : operation = .disconnect name →
      r.disconnect name = some r' →
      Wires r operation shown (r', .returned (.ok (.flag true)))

variable {operation : Operation} {shown : Option (String × ContextId)}

/-- An operation that settles no name returns. -/
theorem Wires.quiet (hconnected : r'.connected = r.connected) {result : Result}
    (h : ∀ name, Completion.settles name (operation, result) = false) :
    r.Wires operation none (r', .returned result) := by
  refine .keeps hconnected rfl (fun _ hactivity => by cases hactivity)
    fun name other heq hsettles => ?_
  cases heq
  rw [h name] at hsettles
  cases hsettles

/-- The names stay as they are, and so does what the operation shows. -/
theorem Wires.continues (hmay : operation.MayShow shown) {activity : Activity}
    (hshows : activity.shows? = shown) (hconnected : r'.connected = r.connected) :
    r.Wires operation shown (r', .continues activity) := by
  refine .keeps hconnected hshows (fun later hlater => ?_) fun _ _ heq => by cases heq
  cases hlater
  rw [hshows]
  exact hmay

/-- Waiting for the outside leaves the names as they are. -/
theorem Wires.waits (hmay : operation.MayShow shown) {contact : Contact} {activity : Activity}
    (hshows : activity.shows? = shown) : r.Wires operation shown (r, .waits contact activity) := by
  refine .keeps rfl hshows (fun later hlater => ?_) fun _ _ heq => by cases heq
  cases hlater
  rw [hshows]
  exact hmay

/-- What serves a context does not touch the names. -/
theorem Confined.wires {id : ContextId} {stretch : Stretch} (h : r.Confined id stretch)
    (hserves : stretch.2.Serves id) (hmay : operation.MayShow none) :
    r.Wires operation none stretch := by
  have hshows : ∀ activity : Activity, activity.Serves id → activity.shows? = none := by
    intro activity hactivity
    cases hactivity <;> rfl
  obtain ⟨r', progress⟩ := stretch
  have hconnected : r'.connected = r.connected := by
    have heq : r' = { r with contexts := r'.contexts } := h.registry_eq
    rw [heq]
  cases hserves with
  | returned result => exact .quiet hconnected fun name => hmay name result
  | continues hactivity => exact .continues hmay (hshows _ hactivity) hconnected
  | @waits contact activity _ hactivity =>
    refine .keeps hconnected (hshows activity hactivity) (fun later hlater => ?_)
      fun _ _ heq => by cases heq
    cases hlater
    rw [hshows _ hactivity]
    exact hmay

/-- What the first stretch of an operation does to the names. -/
theorem wires_start (r : Registry) (operation : Operation) :
    r.Wires operation none (operation.start r) := by
  cases operation with
  | load name =>
    simp only [Operation.start]
    split
    · rename_i r' hload
      obtain ⟨-, loaded, rfl, -⟩ := load_cases hload
      exact .quiet (by rfl) fun _ => by rfl
    · exact .quiet (by rfl) fun _ => by rfl
  | loadRemotePrograms session =>
    simp only [Operation.start]
    split
    · rename_i r' hload
      obtain ⟨-, loaded, rfl, -⟩ := load_cases hload
      exact .quiet (by rfl) fun _ => by rfl
    · exact .quiet (by rfl) fun _ => by rfl
  | subscribe id => exact .quiet (by rfl) fun _ => by rfl
  | connect name transport =>
    simp only [Operation.start, beginConnect]
    split
    · rename_i hloaded
      exact .begins rfl rfl hloaded
    · exact .quiet (by rfl) fun _ => by rfl
  | create name transport => exact .quiet (by rfl) fun _ => by rfl
  | disconnect name =>
    simp only [Operation.start]
    split
    · rename_i r' hdisconnect
      exact .closes rfl hdisconnect
    · -- There was no such channel, and there is none.
      rename_i hnone
      refine .keeps rfl rfl (fun _ hactivity => by cases hactivity) fun other result heq hname => ?_
      cases heq
      have hname' : name = other := by simpa [Completion.settles] using hname
      rw [← hname']
      exact Option.map_eq_none_iff.mp hnone
  | dispatch name order =>
    simp only [Operation.start]
    split
    · exact .quiet (by rfl) fun _ => by rfl
    · split
      · exact .quiet (by rfl) fun _ => by rfl
      · exact (r.confined_handle _ _ _).wires (serves_call _ _ (.dispatch _)) fun _ _ => rfl
  | call id request =>
    simp only [Operation.start]
    split
    · exact .quiet (by rfl) fun _ => by rfl
    · exact (r.confined_call _ _ _).wires (serves_call _ _ _) fun _ _ => rfl
  | abort session reason message =>
    have hmay : (Operation.abort session reason message).MayShow none := fun _ _ => rfl
    exact .waits hmay rfl
  | lock session =>
    have hmay : (Operation.lock session).MayShow none := fun _ _ => rfl
    exact .continues hmay rfl rfl

/-- What a later stretch does to names. Only the end of a connecting gives one. -/
theorem Wires.of_continues {free : SessionId → Bool} {activity : Activity} {stretch : Stretch}
    (h : activity.Continues free r stretch) (hmay : operation.MayShow activity.shows?) :
    r.Wires operation activity.shows? stretch := by
  cases h with
  | completes => exact (r.confined_completeOpening _).wires (serves_completeOpening _) hmay
  | fails => exact (r.confined_failOpening _ _ _).wires (serves_failOpening _ _ _) hmay
  | publishes =>
    -- All subscribers have seen the channel, and now it gets its name.
    obtain ⟨transport, htransport⟩ := hmay
    exact .publishes htransport rfl
  | sends | shows | locks => exact .waits hmay rfl
  | called | aborted | unlocks => exact .quiet rfl fun name => hmay name _
  | _ => exact .continues hmay rfl rfl

/-- What is left of an operation may be left of it. -/
theorem Wires.mayShow {stretch : Stretch} (h : r.Wires operation shown stretch)
    {activity : Activity} (hactivity : stretch.2.activity? = some activity) :
    operation.MayShow activity.shows? := by
  cases h with
  | keeps _ _ hmay _ => exact hmay activity hactivity
  | begins hoperation =>
    cases hactivity
    exact ⟨_, hoperation⟩
  | publishes => cases hactivity
  | closes => cases hactivity

/-- A stretch changes what a name stands for only if its operation returns and settles the name. -/
theorem Wires.channel?_eq {stretch : Stretch} (h : r.Wires operation shown stretch) {name : String}
    {done : List Completion} (hstanding : r.channel? name = standing? name done) :
    stretch.1.channel? name
      = standing? name (done ++ (stretch.2.completion? operation).toList) := by
  have hnothing : standing? name done = standing? name (done ++ []) := by rw [List.append_nil]
  cases h with
  | @keeps stretch hconnected _ _ hsettled =>
    have hsame : stretch.1.channel? name = r.channel? name := by
      unfold channel?
      rw [hconnected]
    rw [hsame]
    obtain ⟨r', progress⟩ := stretch
    cases progress with
    | returned result =>
      show _ = standing? name (done ++ [(operation, result)])
      rw [standing?_concat]
      split
      · rename_i hsettles
        exact hsettled name result rfl hsettles
      · exact hstanding
    | continues activity => exact hstanding.trans hnothing
    | waits contact activity => exact hstanding.trans hnothing
  | begins _ _ _ => exact hstanding.trans hnothing
  -- The newest completion settles its own name and no other.
  | @publishes other transport c hoperation =>
    subst hoperation
    show _ = standing? name (done ++ [(.connect other transport, .ok (.context c))])
    rw [standing?_concat, channel?_publish]
    by_cases hname : name = other
    · simp [hname, Completion.settles, Completion.context?]
    · simp [hname, Ne.symm hname, Completion.settles, hstanding]
  | @closes other r' hoperation hdisconnect =>
    subst hoperation
    show _ = standing? name (done ++ [(.disconnect other, .ok (.flag true))])
    rw [standing?_concat, channel?_disconnect hdisconnect]
    by_cases hname : name = other
    · simp [hname, Completion.settles, Completion.context?]
    · simp [hname, Ne.symm hname, Completion.settles, hstanding]

end Registry

namespace Machine

/-- The channel that an activity of the machine connects. -/
def shows? (m : Machine) (id : ActivityId) : Option (String × ContextId) :=
  (m.activity? id).bind Activity.shows?

/-- Names stand for contexts that bear them. So do the activities that connect channels, each for a
context of its own that no name stands for yet. -/
structure IsRouted (m : Machine) : Prop where
  named : ∀ name c, (name, c) ∈ m.registry.connected → m.registry.Bears name c
  shown : ∀ id name c, m.shows? id = some (name, c) →
    m.registry.Bears name c ∧ ¬ m.registry.Names c
  single : ∀ id id' name name' c, m.shows? id = some (name, c) →
    m.shows? id' = some (name', c) → id = id'

variable {m : Machine}

/-- On a new machine no name stands for anything. -/
theorem isRouted_ofRegistry (available : List String) : (ofRegistry { available }).IsRouted where
  named name c h := by cases h
  shown id name c h := by cases h
  single id id' name name' c h := by cases h

/-- A stretch decides on the channel that its own activity connects, and on no other. -/
theorem shows?_enter (m : Machine) (id other : ActivityId) (stretch : Stretch) :
    (m.enter id stretch).1.shows? other
      = if other = id then stretch.2.activity?.bind Activity.shows? else m.shows? other := by
  unfold shows?
  rw [activity?_enter]
  split
  · rfl
  · rfl

/-- Only the registry and the activities count. -/
theorem IsRouted.numbered (h : m.IsRouted) (move : Move) : (m.numbered move).IsRouted := by
  cases move <;> exact ⟨h.named, h.shown, h.single⟩

/-- Nothing is shown and no name stands for anything that was not so before. -/
theorem IsRouted.mono (h : m.IsRouted) {m' : Machine}
    (hbears : ∀ name c, m.registry.Bears name c → m'.registry.Bears name c)
    (hshown : ∀ id entry, m'.shows? id = some entry → m.shows? id = some entry)
    (hnamed : ∀ entry ∈ m'.registry.connected, entry ∈ m.registry.connected) : m'.IsRouted := by
  refine ⟨fun name c hname => hbears name c (h.named name c (hnamed _ hname)),
    fun id name c hentry => ?_, fun id₁ id₂ _ _ c h₁ h₂ =>
      h.single _ _ _ _ c (hshown _ _ h₁) (hshown _ _ h₂)⟩
  obtain ⟨hbear, hunnamed⟩ := h.shown id name c (hshown id _ hentry)
  exact ⟨hbears name c hbear, fun ⟨other, hother⟩ => hunnamed ⟨other, hnamed _ hother⟩⟩

/-- An activity that does not go on shows nothing, and the others show what they did. -/
theorem shows?_of_enter_finished {id other : ActivityId} {stretch : Stretch}
    {entry : String × ContextId} (hfinished : stretch.2.activity? = none)
    (hentry : (m.enter id stretch).1.shows? other = some entry) :
    other ≠ id ∧ m.shows? other = some entry := by
  rw [shows?_enter] at hentry
  split at hentry
  · rw [hfinished] at hentry
    cases hentry
  · rename_i hne
    exact ⟨hne, hentry⟩

/-- A channel is connected as far as its first subscriber. Its context is new, so nobody else shows
it and no name stands for it. -/
theorem IsRouted.begins (h : m.IsRouted) {id : ActivityId} {name : String} {context : Context}
    {left : List Subscriber} (hname : context.name = name) (hloaded : name ∈ m.registry.loaded)
    (hbears : ∀ name c, m.registry.Bears name c → (m.registry.create context).Bears name c) :
    (m.enter id (m.registry.create context,
      .continues (.notifying name m.registry.nextContext left))).1.IsRouted := by
  -- An entry is the new one or an old one, and no old one has the new context.
  have hentry : ∀ other name' c,
      (m.enter id (m.registry.create context,
        .continues (.notifying name m.registry.nextContext left))).1.shows? other
        = some (name', c) →
      (other = id ∧ name' = name ∧ c = m.registry.nextContext) ∨
        (m.shows? other = some (name', c) ∧ c ≠ m.registry.nextContext) := by
    intro other name' c hentry
    rw [shows?_enter] at hentry
    split at hentry
    · rename_i hid
      cases hentry
      exact .inl ⟨hid, rfl, rfl⟩
    · exact .inr ⟨hentry, (h.shown other name' c hentry).1.ne_nextContext⟩
  refine ⟨fun name' c hname => ?_, fun other name' c hshows => ?_,
    fun id₁ id₂ name₁ name₂ c h₁ h₂ => ?_⟩
  · rw [registry_enter] at hname ⊢
    exact hbears name' c (h.named name' c hname)
  · rw [registry_enter]
    obtain ⟨-, rfl, rfl⟩ | ⟨hold, -⟩ := hentry other name' c hshows
    · refine ⟨⟨hloaded, ⟨context, (Registry.context?_create ..).trans (if_pos rfl), hname⟩⟩, ?_⟩
      exact fun ⟨other, hnamed⟩ => (h.named other _ hnamed).ne_nextContext rfl
    · obtain ⟨hbear, hunnamed⟩ := h.shown other name' c hold
      exact ⟨hbears name' c hbear, hunnamed⟩
  · obtain ⟨rfl, -, rfl⟩ | ⟨hold₁, hne₁⟩ := hentry id₁ name₁ c h₁
    · obtain ⟨rfl, -⟩ | ⟨-, hne⟩ := hentry id₂ name₂ _ h₂
      · rfl
      · exact absurd rfl hne
    · obtain ⟨-, -, rfl⟩ | ⟨hold₂, -⟩ := hentry id₂ name₂ c h₂
      · exact absurd rfl hne₁
      · exact h.single _ _ _ _ c hold₁ hold₂

/-- The context that an activity showed gets its name. -/
theorem IsRouted.publishes (h : m.IsRouted) {id : ActivityId} {name : String} {c : ContextId}
    (hshows : m.shows? id = some (name, c)) (result : Result)
    (hbears : ∀ name' c', m.registry.Bears name' c' →
      (m.registry.publish name c).Bears name' c') :
    (m.enter id (m.registry.publish name c, .returned result)).1.IsRouted := by
  refine ⟨fun name' c' hname => ?_, fun other name' c' hentry => ?_,
    fun id₁ id₂ name₁ name₂ c' h₁ h₂ => ?_⟩
  · rw [registry_enter] at hname ⊢
    obtain heq | hold := List.mem_cons.mp hname
    · cases heq
      exact hbears name c (h.shown id name c hshows).1
    · exact hbears name' c' (h.named name' c' (List.mem_filter.mp hold).1)
  · obtain ⟨hne, hold⟩ := shows?_of_enter_finished rfl hentry
    obtain ⟨hbear, hunnamed⟩ := h.shown other name' c' hold
    rw [registry_enter]
    refine ⟨hbears name' c' hbear, fun ⟨name'', hnamed⟩ => ?_⟩
    obtain heq | hnamed := List.mem_cons.mp hnamed
    · -- The context that got the name is not shown by anybody else.
      cases heq
      exact hne (h.single _ _ _ _ c hold hshows)
    · exact hunnamed ⟨name'', (List.mem_filter.mp hnamed).1⟩
  · exact h.single _ _ _ _ c' (shows?_of_enter_finished rfl h₁).2
      (shows?_of_enter_finished rfl h₂).2

/-- A stretch that knows of each context what was known before keeps the names in order. -/
theorem IsRouted.enter (h : m.IsRouted) {id : ActivityId} {stretch : Stretch}
    {operation : Operation} {shown : Option (String × ContextId)}
    (hshown : ∀ entry, shown = some entry → m.shows? id = some entry)
    (hwires : m.registry.Wires operation shown stretch)
    (hbears : ∀ name c, m.registry.Bears name c → stretch.1.Bears name c) :
    (m.enter id stretch).1.IsRouted := by
  have hbears' : ∀ name c, m.registry.Bears name c →
      (m.enter id stretch).1.registry.Bears name c := by
    rw [registry_enter]
    exact hbears
  cases hwires with
  -- The activity goes on with what it showed before, or shows nothing.
  | @keeps stretch hconnected hshows _ _ =>
    refine h.mono hbears' (fun other entry hentry => ?_) fun entry hentry => ?_
    · rw [shows?_enter] at hentry
      split at hentry
      · rename_i hid
        rw [hshows] at hentry
        exact hid ▸ hshown entry hentry
      · exact hentry
    · rwa [registry_enter, hconnected] at hentry
  | begins _ _ hloaded => exact h.begins rfl (by simpa [Registry.isLoaded] using hloaded) hbears
  | publishes _ hshows => exact h.publishes (hshown _ hshows) _ hbears
  | @closes name r' _ hdisconnect =>
    obtain ⟨c, -, rfl⟩ := Option.map_eq_some_iff.mp hdisconnect
    refine h.mono hbears' (fun other entry hentry => (shows?_of_enter_finished rfl hentry).2)
      fun entry hentry => ?_
    rw [registry_enter] at hentry
    exact (List.mem_filter.mp hentry).1

/-- What is known of a machine from outside. The operations that were called so far have the numbers
of their places, what is left of each of them may be left of it, and the names stand for what has
returned. -/
structure Tells (called : List Operation) (done : List Completion) (m : Machine) : Prop where
  length_eq : called.length = m.nextActivity
  stems : ∀ id activity, m.activity? id = some activity →
    ∃ operation, called[id]? = some operation ∧ operation.MayShow activity.shows?
  isRouted : m.IsRouted
  channel?_eq : ∀ name, m.registry.channel? name = standing? name done

/-- Of a new machine there is nothing to tell. -/
theorem tells_ofRegistry (available : List String) : (ofRegistry { available }).Tells [] [] where
  length_eq := rfl
  stems id activity h := by cases h
  isRouted := isRouted_ofRegistry available
  channel?_eq name := rfl

variable {called : List Operation} {done : List Completion}

/-- A move does nothing, or it enters a stretch of one of the operations that were called. -/
theorem Tells.wires (h : m.Tells called done) (move : Move) :
    (m.step move = (m, none) ∧ move.operation? = none) ∨
      ∃ id stretch operation shown, m.step move = (m.numbered move).enter id stretch ∧
        (called ++ move.operation?.toList)[id]? = some operation ∧
        m.registry.Wires operation shown stretch ∧
        ∀ entry, shown = some entry → m.shows? id = some entry := by
  cases hmove : move.activity? with
  | none =>
    cases move with
    | call operation =>
      refine .inr ⟨m.nextActivity, _, operation, none, step_call m operation, ?_,
        Registry.wires_start m.registry operation, fun entry hentry => by cases hentry⟩
      rw [← h.length_eq]
      exact List.getElem?_concat_length
    | resume id | answer id reply => cases hmove
  | some id =>
    have hnone := Move.operation?_of_activity? hmove
    obtain ⟨activity, stretch, hactivity, hcontinues, hstep⟩ | hstep := m.carries_cases hmove
    · -- A later stretch belongs to an operation that was called before.
      obtain ⟨operation, hcalled, hmay⟩ := h.stems id activity hactivity
      refine .inr ⟨id, stretch, operation, activity.shows?, hstep, ?_,
        .of_continues hcontinues hmay, fun entry hentry => ?_⟩
      · rw [hnone, Option.toList_none, List.append_nil]
        exact hcalled
      · unfold shows?
        rw [hactivity]
        exact hentry
    · exact .inl ⟨hstep, hnone⟩

/-- Whatever is known of a context is known of it after a move too. -/
theorem bears_step (m : Machine) (move : Move) {name : String} {c : ContextId}
    (h : m.registry.Bears name c) : (m.step move).1.registry.Bears name c :=
  h.mono (extends_step m move).loaded_grows (changes_step m move)

/-- The operation that returns is the one whose stretch it was. -/
theorem completion?_event? {progress : Progress} {id : ActivityId} {operation : Operation}
    (h : called[id]? = some operation) :
    (progress.event? id).bind (Event.completion? called) = progress.completion? operation := by
  cases progress with
  | returned result =>
    show called[id]?.map _ = _
    rw [h]
    rfl
  | continues activity => rfl
  | waits contact activity => rfl

/-- With each operation that is called one number is taken. -/
theorem length_called (h : m.Tells called done) (move : Move) :
    (called ++ move.operation?.toList).length = (m.numbered move).nextActivity := by
  rw [List.length_append, h.length_eq]
  cases move <;> rfl

/-- What is told of a machine is told on with each move, by the operation it begins and the one that
returns. -/
theorem Tells.step (h : m.Tells called done) (move : Move) :
    (m.step move).1.Tells (called ++ move.operation?.toList)
      (done ++ ((m.step move).2.bind
        (Event.completion? (called ++ move.operation?.toList))).toList) := by
  obtain ⟨hidle, hmove⟩ | ⟨id, stretch, operation, shown, hstep, hcalled, hwires, hshown⟩ :=
    h.wires move
  · rw [hidle, hmove]
    simpa using h
  · have hlength := length_called h move
    have hbears := fun name c => @bears_step m move name c
    rw [hstep] at hbears ⊢
    refine ⟨?_, fun other activity hactivity => ?_, ?_, fun name => ?_⟩
    · rw [nextActivity_enter]
      exact hlength
    · by_cases hid : other = id
      · subst hid
        rw [activity?_enter_self] at hactivity
        exact ⟨operation, hcalled, hwires.mayShow hactivity⟩
      · -- What another operation left was left of it before, and it has the same number.
        rw [activity?_enter_ne _ _ hid, activity?_numbered] at hactivity
        obtain ⟨operation', hcalled', hmay⟩ := h.stems other activity hactivity
        obtain ⟨hlt, -⟩ := List.getElem?_eq_some_iff.mp hcalled'
        exact ⟨operation', by rw [List.getElem?_append_left hlt, hcalled'], hmay⟩
    · refine (h.isRouted.numbered move).enter (fun entry hentry => ?_)
        (by rw [registry_numbered]; exact hwires) fun name c hbear => ?_
      · unfold shows?
        rw [activity?_numbered]
        exact hshown entry hentry
      · rw [registry_numbered] at hbear
        have hafter := hbears name c hbear
        rwa [registry_enter] at hafter
    · rw [registry_enter, event_enter, completion?_event? hcalled]
      exact hwires.channel?_eq (h.channel?_eq name)

/-- What is known after a run: the names stand for what has returned in it. -/
theorem Tells.run (h : m.Tells called done) (moves : List Move) :
    (m.run moves).1.Tells (called ++ moves.filterMap Move.operation?)
      (done ++ m.completions called moves) := by
  induction moves generalizing m called done with
  | nil => simpa [completions, run] using h
  | cons move moves ih =>
    have hlater := ih (h.step move)
    rw [List.append_assoc, List.append_assoc] at hlater
    rw [Move.operations_cons]
    exact hlater

end Machine

/-! ### The property -/

/-- What the names stand for, in every run, whoever calls what in the middle of which other
operation. What is loaded was available, is listed once, and stays loaded. A name that stands for a
context is loaded, and the context bears it. Which context that is follows from what has returned:
the last one that was connected under the name, if the name was not disconnected since. A context
that is still being shown to subscribers has no name.

An order for a name that stands for nothing is refused, and that is all. An order for any other name
is handled on the context that the name stands for, and all that belongs to it until it returns
leaves the other contexts alone, whatever happens in between. -/
theorem registry_routes (available : List String) (moves : List Move) :
    let start : Machine := .ofRegistry { available }
    let m := (start.run moves).1
    let r := m.registry
    (r.available = available ∧ r.loaded.Nodup ∧ r.loaded ⊆ available ∧
      ∀ later, r.loaded <+: (m.run later).1.registry.loaded) ∧
    (∀ name c, r.channel? name = some c →
      name ∈ r.loaded ∧ ∃ context, r.context? c = some context ∧ context.name = name) ∧
    (∀ name, r.channel? name = standing? name (start.completions [] moves)) ∧
    (∀ id name c, m.shows? id = some (name, c) → ∀ other, r.channel? other ≠ some c) ∧
    ∀ name order,
      let call : Move := .call (.dispatch name order)
      (r.channel? name = none → (m.step call).1.registry = r ∧
        (m.step call).2 = some (.returned m.nextActivity (.error (.noChannel name)))) ∧
      ∀ c, r.channel? name = some c →
        (∃ context, r.context? c = some context ∧
          (Operation.dispatch name order).start r = r.handle c context order) ∧
        m.StaysWith c call ∧
        ∀ between move, move.activity? = some m.nextActivity →
          (m.run (call :: between)).1.StaysWith c move := by
  intro start m r
  have htells : m.Tells _ _ := (Machine.tells_ofRegistry available).run moves
  have hoffer : r.IsOffer available :=
    Machine.isOffer_run (m := start) ⟨rfl, List.nodup_nil, List.nil_subset _⟩ moves
  have hbears : ∀ name c, r.channel? name = some c → r.Bears name c := fun name c hchannel =>
    htells.isRouted.named name c (Registry.mem_of_channel? hchannel)
  refine ⟨⟨hoffer.available_eq, hoffer.nodup, hoffer.subset, Machine.loaded_grows_run m⟩,
    fun name c hchannel => ⟨(hbears name c hchannel).loaded, (hbears name c hchannel).context⟩,
    htells.channel?_eq, fun id name c hshows other hchannel => ?_,
    fun name order => ⟨fun hnone => ?_, fun c hchannel => ?_⟩⟩
  · exact (htells.isRouted.shown id name c hshows).2 (Registry.names_of_channel? hchannel)
  · have hstart : (Operation.dispatch name order).start r = r.refuse (.noChannel name) := by
      rw [Operation.start, hnone]
    refine ⟨?_, ?_⟩
    · rw [Machine.step_call, Machine.registry_enter]
      exact congrArg Prod.fst hstart
    · rw [Machine.event_step_call]
      exact congrArg (fun stretch => stretch.2.event? m.nextActivity) hstart
  · -- A name never stands for a context that is not there.
    obtain ⟨context, hcontext, -⟩ := (hbears name c hchannel).context
    have hstart : (Operation.dispatch name order).start r = r.handle c context order := by
      rw [Operation.start, hchannel]
      simp only [hcontext]
    refine ⟨⟨context, hcontext, hstart⟩, Machine.staysWith_call ?_ ?_⟩
    · show r.Confined c ((Operation.dispatch name order).start r)
      rw [hstart]
      exact r.confined_handle c context order
    · show ((Operation.dispatch name order).start r).2.Serves c
      rw [hstart]
      exact Registry.serves_call c context (.dispatch order)

/-- A subscriber that connects the same name while the name is being connected gets it first, and
the outer operation takes it over. -/
example :
    let m : Machine := .ofRegistry { available := [remoteProgramsChannel] }
    let inner : List Move :=
      [.call (.load remoteProgramsChannel), .call (.subscribe 7),
        .call (.connect remoteProgramsChannel 5), .resume 2,
        .call (.connect remoteProgramsChannel 6), .resume 3, .answer 3 (.ok ()), .resume 3]
    (m.run inner).1.registry.channel? remoteProgramsChannel = some 1 ∧
      (m.run (inner ++ [.answer 2 (.ok ()), .resume 2])).1.registry.channel? remoteProgramsChannel
        = some 0 := by decide

end RemotePrograms
