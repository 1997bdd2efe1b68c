import RemotePrograms.Proofs.Channel.Routing

/-!
# `RemotePrograms.Proofs.Channel.Excerpt`: what remains of a registry for remote programs

`Registry.Excerpt` relates a registry to one that has only the contexts for remote programs. They
stand there in the same order, so a context has another number: its `place` among those that are
marked. What the first part says of places holds for lists in general.

Whatever is done to remote programs is done on both sides alike: there is one lemma for each
function that changes a registry, and for each stretch (`Stretch.Excerpt`). Three of them put the
parts together, `Excerpt.start`, `Excerpt.resume` and `Excerpt.answer`. The lemmas whose names end
in `_other` say that an excerpt stays one when something is done to another channel.
-/

set_option autoImplicit false

namespace RemotePrograms

/-! ### Places among what is marked -/

/-- The place of an entry among those that are marked. -/
def place (marks : List Bool) (i : Nat) : Nat :=
  (marks.take i).count true

/-- Marks behind an entry do not change its place. -/
theorem place_append {marks : List Bool} {i : Nat} (h : i ≤ marks.length) (more : List Bool) :
    place (marks ++ more) i = place marks i := by
  unfold place
  rw [List.take_append_of_le_length h]

/-- The place behind the last entry is the number of those that are marked. -/
theorem place_length (marks : List Bool) : place marks marks.length = marks.count true := by
  unfold place
  rw [List.take_length]

/-- A marked entry in front moves all places on by one. -/
theorem place_succ (mark : Bool) (marks : List Bool) (i : Nat) :
    place (mark :: marks) (i + 1) = place marks i + if mark = true then 1 else 0 := by
  unfold place
  rw [List.take_succ_cons, List.count_cons]
  simp

/-- No two marked entries have the same place. -/
theorem place_inj {marks : List Bool} {i j : Nat} (hi : marks[i]? = some true)
    (hj : marks[j]? = some true) (h : place marks i = place marks j) : i = j := by
  -- A first entry has the place zero, and those behind it have places above that.
  induction marks generalizing i j with
  | nil => cases hi
  | cons mark marks ih =>
    cases i with
    | zero =>
      cases j with
      | zero => rfl
      | succ j =>
        cases hi
        rw [place_succ] at h
        simp [place] at h
    | succ i =>
      cases j with
      | zero =>
        cases hj
        rw [place_succ] at h
        simp [place] at h
      | succ j =>
        rw [place_succ, place_succ] at h
        exact congrArg Nat.succ (ih hi hj (Nat.add_right_cancel h))

/-- Every place is taken. -/
theorem exists_place {marks : List Bool} {j : Nat} (h : j < marks.count true) :
    ∃ i, marks[i]? = some true ∧ place marks i = j := by
  induction marks generalizing j with
  | nil => cases h
  | cons mark marks ih =>
    cases mark with
    | false =>
      obtain ⟨i, hi, hplace⟩ := ih (by simpa using h)
      exact ⟨i + 1, hi, by simpa [place_succ] using hplace⟩
    | true =>
      cases j with
      | zero => exact ⟨0, rfl, rfl⟩
      | succ j =>
        obtain ⟨i, hi, hplace⟩ := ih (by simpa using h)
        exact ⟨i + 1, hi, by simpa [place_succ] using hplace⟩

section Filter

variable {α : Type} {p : α → Bool} {f : α → α} {xs : List α} {i : Nat} {x : α}

/-- An entry that is kept has the place among the kept ones. -/
theorem getElem?_filter_place (h : xs[i]? = some x) (hp : p x = true) :
    (xs.filter p)[place (xs.map p) i]? = some x := by
  induction xs generalizing i with
  | nil => cases h
  | cons y xs ih =>
    cases i with
    | zero =>
      cases h
      rw [List.filter_cons_of_pos hp]
      rfl
    | succ i =>
      rw [List.map_cons, place_succ]
      cases hy : p y with
      | true =>
        rw [List.filter_cons_of_pos hy]
        exact ih h
      | false =>
        rw [List.filter_cons_of_neg (by simp [hy])]
        exact ih h

/-- Changing an entry that is selected, before and after, changes it at its place among the selected
ones. -/
theorem filter_modify_of_pos (h : xs[i]? = some x) (hp : p x = true) (hf : p (f x) = true) :
    (xs.modify i f).filter p = (xs.filter p).modify (place (xs.map p) i) f := by
  induction xs generalizing i with
  | nil => cases h
  | cons y xs ih =>
    cases i with
    | zero =>
      cases h
      rw [List.modify_zero_cons, List.filter_cons_of_pos hf, List.filter_cons_of_pos hp]
      rfl
    | succ i =>
      rw [List.modify_succ_cons, List.map_cons, place_succ]
      cases hy : p y with
      | true =>
        rw [List.filter_cons_of_pos hy, List.filter_cons_of_pos hy, ih h]
        rfl
      | false =>
        rw [List.filter_cons_of_neg (by simp [hy]), List.filter_cons_of_neg (by simp [hy]), ih h]
        rfl

/-- Changing an entry that is not selected, neither before nor after, changes nothing among the
selected ones. -/
theorem filter_modify_of_neg (h : ∀ x, xs[i]? = some x → p x = false ∧ p (f x) = false) :
    (xs.modify i f).filter p = xs.filter p := by
  induction xs generalizing i with
  | nil => rw [List.modify_nil]
  | cons y xs ih =>
    cases i with
    | zero =>
      obtain ⟨hy, hfy⟩ := h y rfl
      rw [List.modify_zero_cons, List.filter_cons_of_neg (by simp [hfy]),
        List.filter_cons_of_neg (by simp [hy])]
    | succ i =>
      rw [List.modify_succ_cons, List.filter_cons, List.filter_cons, ih h]

/-- A change that the selection does not see leaves the marks as they are. -/
theorem map_modify_of_eq (h : ∀ x, xs[i]? = some x → p (f x) = p x) :
    (xs.modify i f).map p = xs.map p := by
  induction xs generalizing i with
  | nil => rw [List.modify_nil]
  | cons y xs ih =>
    cases i with
    | zero => rw [List.modify_zero_cons, List.map_cons, List.map_cons, h y rfl]
    | succ i => rw [List.modify_succ_cons, List.map_cons, List.map_cons, ih h]

end Filter

/-! ### Other numbers for the same contexts -/

section Renumber

variable (f : ContextId → ContextId)

/-- The same request, with other numbers for the contexts. -/
def Contact.renumber : Contact → Contact
  | send c transport order => send (f c) transport order
  | callback c handler order => callback (f c) handler order
  | notify c subscriber => notify (f c) subscriber
  | contact => contact

/-- An opening whose context has another number. -/
def Opening.renumber (o : Opening) : Opening :=
  { o with context := f o.context }

/-- An activity that is about a context of another number. -/
def Activity.renumber : Activity → Activity
  | opening o left => opening (o.renumber f) left
  | sending o order left => sending (o.renumber f) order left
  | notifying name c left => notifying name (f c) left
  | notified name c left => notified name (f c) left
  | activity => activity

/-- What is returned, with another number for the context. -/
def Value.renumber : Value → Value
  | context c => context (f c)
  | value => value

/-- The end of a stretch, with another number for each context. -/
def Progress.renumber : Progress → Progress
  | returned result => returned (result.map (Value.renumber f))
  | continues activity => continues (activity.renumber f)
  | waits contact activity => waits (contact.renumber f) (activity.renumber f)

end Renumber

section Renumber

variable {f g : ContextId → ContextId}

/-- Numbers do not matter for whether an activity waits for the outside. -/
theorem Activity.isOutside_renumber (activity : Activity) :
    (activity.renumber f).isOutside = activity.isOutside := by
  cases activity <;> rfl

/-- Numbers do not matter for the lock that an activity holds. -/
theorem Activity.lock?_renumber (activity : Activity) :
    (activity.renumber f).lock? = activity.lock? := by
  cases activity <;> rfl

/-- Only the number of its own context counts for an activity. -/
theorem Activity.renumber_congr {activity : Activity}
    (h : ∀ c, activity.context? = some c → f c = g c) :
    activity.renumber f = activity.renumber g := by
  cases activity with
  | opening o left | sending o order left =>
    simp only [renumber, Opening.renumber, h o.context rfl]
  | notifying name c left | notified name c left => simp only [renumber, h c rfl]
  | _ => rfl

/-- What is left of an operation is renumbered with the rest. -/
theorem Progress.activity?_renumber (progress : Progress) :
    (progress.renumber f).activity? = progress.activity?.map (Activity.renumber f) := by
  cases progress <;> rfl

end Renumber

/-! ### Registries -/

/-- Whether a context has the name of the channel for remote programs. -/
def Context.isRemote (context : Context) : Bool :=
  decide (context.name = remoteProgramsChannel)

namespace Registry

/-- The number that a context has among those for remote programs. -/
def place (r : Registry) (c : ContextId) : ContextId :=
  RemotePrograms.place (r.contexts.map Context.isRemote) c

/-- What remains of a registry for remote programs: nobody but them is loaded and connected, and
they have the contexts that are theirs. -/
structure Excerpt (r r' : Registry) : Prop where
  available_eq : r'.available = r.available
  isLoaded_eq : r'.isLoaded remoteProgramsChannel = r.isLoaded remoteProgramsChannel
  subscribers_eq : r'.subscribers = r.subscribers
  contexts_eq : r'.contexts = r.contexts.filter Context.isRemote
  channel?_eq : r'.channel? remoteProgramsChannel
    = (r.channel? remoteProgramsChannel).map r.place

variable {r r' : Registry} {c : ContextId} {context : Context}

/-- A channel for remote programs is the same context on the other side, at its place. -/
theorem Excerpt.context? (h : r.Excerpt r') (hcontext : r.context? c = some context)
    (hname : context.name = remoteProgramsChannel) : r'.context? (r.place c) = some context := by
  unfold Registry.context?
  rw [h.contexts_eq]
  exact getElem?_filter_place hcontext (decide_eq_true hname)

/-- The next number on one side is at the place of the next number on the other. -/
theorem place_nextContext (h : r.Excerpt r') : r.place r.nextContext = r'.nextContext := by
  unfold place nextContext
  rw [h.contexts_eq, ← List.length_map, place_length, List.count, List.countP_map,
    List.countP_eq_length_filter]
  congr 2
  funext context
  simp

/-- The places stay the same when contexts keep their names. -/
theorem place_update {f : Context → Context}
    (hf : ∀ context, r.context? c = some context → (f context).name = context.name) :
    (r.update c f).place = r.place := by
  funext other
  unfold place
  rw [show (r.update c f).contexts = r.contexts.modify c f from rfl, map_modify_of_eq]
  intro context hcontext
  unfold Context.isRemote
  rw [hf context hcontext]

/-- A context for remote programs is changed. -/
theorem Excerpt.update (h : r.Excerpt r') (hcontext : r.context? c = some context)
    (hname : context.name = remoteProgramsChannel) {f : Context → Context}
    (hf : (f context).name = context.name) :
    (r.update c f).Excerpt (r'.update (r.place c) f) := by
  refine ⟨h.available_eq, h.isLoaded_eq, h.subscribers_eq, ?_, ?_⟩
  · show r'.contexts.modify (r.place c) f = (r.contexts.modify c f).filter _
    rw [h.contexts_eq]
    exact (filter_modify_of_pos hcontext (decide_eq_true hname)
      (decide_eq_true (hf.trans hname))).symm
  · rw [place_update]
    · exact h.channel?_eq
    · intro other hother
      rw [hcontext] at hother
      cases hother
      exact hf

/-- Another context is changed. -/
theorem Excerpt.update_other (h : r.Excerpt r')
    (hother : ∀ context, r.context? c = some context → context.name ≠ remoteProgramsChannel)
    {f : Context → Context}
    (hf : ∀ context, r.context? c = some context → (f context).name = context.name) :
    (r.update c f).Excerpt r' := by
  refine ⟨h.available_eq, h.isLoaded_eq, h.subscribers_eq, ?_, ?_⟩
  · rw [h.contexts_eq]
    refine (filter_modify_of_neg fun context hcontext => ?_).symm
    unfold Context.isRemote
    rw [hf context hcontext]
    exact ⟨decide_eq_false (hother context hcontext), decide_eq_false (hother context hcontext)⟩
  · rw [place_update hf]
    exact h.channel?_eq

/-- The places stay the same when contexts are added. -/
theorem place_create (context : Context) (hc : c ≤ r.contexts.length) :
    (r.create context).place c = r.place c := by
  unfold place
  rw [show (r.create context).contexts = r.contexts ++ [context] from rfl, List.map_append]
  exact place_append (by rwa [List.length_map]) _

/-- A context is added. It counts if it is one for remote programs. -/
theorem Excerpt.create (h : r.Excerpt r')
    (hnamed : ∀ c, r.channel? remoteProgramsChannel = some c → c < r.contexts.length)
    (context : Context) :
    (r.create context).Excerpt (if context.isRemote then r'.create context else r') := by
  have hchannel : r'.channel? remoteProgramsChannel
      = (r.channel? remoteProgramsChannel).map (r.create context).place := by
    rw [h.channel?_eq]
    refine Option.map_congr fun c hc => ?_
    rw [place_create context (Nat.le_of_lt (hnamed c hc))]
  split
  · rename_i hremote
    refine ⟨h.available_eq, h.isLoaded_eq, h.subscribers_eq, ?_, hchannel⟩
    show r'.contexts ++ [context] = (r.contexts ++ [context]).filter _
    rw [h.contexts_eq, List.filter_append, List.filter_cons_of_pos hremote, List.filter_nil]
  · rename_i hremote
    refine ⟨h.available_eq, h.isLoaded_eq, h.subscribers_eq, ?_, hchannel⟩
    show r'.contexts = (r.contexts ++ [context]).filter _
    rw [h.contexts_eq, List.filter_append, List.filter_cons_of_neg hremote, List.filter_nil,
      List.append_nil]

/-- A context gets the name. -/
theorem Excerpt.publish (h : r.Excerpt r') (c : ContextId) :
    (r.publish remoteProgramsChannel c).Excerpt
      (r'.publish remoteProgramsChannel (r.place c)) := by
  refine ⟨h.available_eq, h.isLoaded_eq, h.subscribers_eq, h.contexts_eq, ?_⟩
  rw [channel?_publish, channel?_publish, if_pos rfl, if_pos rfl]
  rfl

/-- Giving a name to another channel changes nothing on the other side. -/
theorem Excerpt.publish_other (h : r.Excerpt r') {name : String}
    (hname : name ≠ remoteProgramsChannel) (c : ContextId) :
    (r.publish name c).Excerpt r' := by
  refine ⟨h.available_eq, h.isLoaded_eq, h.subscribers_eq, h.contexts_eq, ?_⟩
  rw [channel?_publish, if_neg (Ne.symm hname)]
  exact h.channel?_eq

/-- The channel for remote programs is taken away. -/
theorem Excerpt.disconnect (h : r.Excerpt r') (hnamed : ∀ c,
      r.channel? remoteProgramsChannel = some c → r.Bears remoteProgramsChannel c) :
    Option.Rel Excerpt (r.disconnect remoteProgramsChannel)
      (r'.disconnect remoteProgramsChannel) := by
  unfold Registry.disconnect
  rw [h.channel?_eq]
  cases hchannel : r.channel? remoteProgramsChannel with
  | none => exact .none
  | some c =>
    obtain ⟨context, hcontext, hname⟩ := (hnamed c hchannel).context
    refine .some ?_
    -- First the name goes, then the context is closed.
    refine Excerpt.update (r := { r with connected := r.connected.filter (·.1 ≠ _) }) ?_
      hcontext hname rfl
    refine ⟨h.available_eq, h.isLoaded_eq, h.subscribers_eq, h.contexts_eq, ?_⟩
    show (r'.connected.filter _).lookup _ = ((r.connected.filter _).lookup _).map _
    rw [lookup_filter_ne, lookup_filter_ne, if_pos rfl, if_pos rfl]
    rfl

/-- Another channel is taken away. -/
theorem Excerpt.disconnect_other (h : r.Excerpt r') {name : String}
    (hname : name ≠ remoteProgramsChannel)
    (hnamed : ∀ c, r.channel? name = some c → r.Bears name c) {after : Registry}
    (hdisconnect : r.disconnect name = some after) : after.Excerpt r' := by
  obtain ⟨c, hchannel, rfl⟩ := Option.map_eq_some_iff.mp hdisconnect
  obtain ⟨context, hcontext, hbears⟩ := (hnamed c hchannel).context
  refine Excerpt.update_other ?_ (fun other hother => ?_) fun _ _ => rfl
  · refine ⟨h.available_eq, h.isLoaded_eq, h.subscribers_eq, h.contexts_eq, ?_⟩
    show _ = ((r.connected.filter _).lookup _).map _
    rw [lookup_filter_ne, if_neg (Ne.symm hname)]
    exact h.channel?_eq
  · rw [show r.context? c = some other from hother] at hcontext
    cases hcontext
    rwa [hbears]

/-- Support for remote programs is loaded. -/
theorem Excerpt.load (h : r.Excerpt r') :
    (∃ cause, r.load remoteProgramsChannel = .error cause ∧
      r'.load remoteProgramsChannel = .error cause) ∨
      ∃ after after', r.load remoteProgramsChannel = .ok after ∧
        r'.load remoteProgramsChannel = .ok after' ∧ after.Excerpt after' := by
  have havailable : r'.available.contains remoteProgramsChannel
      = r.available.contains remoteProgramsChannel := by rw [h.available_eq]
  unfold Registry.load
  rw [havailable, h.isLoaded_eq]
  split
  · right
    split
    · exact ⟨_, _, rfl, rfl, h⟩
    · refine ⟨_, _, rfl, rfl, h.available_eq, ?_, h.subscribers_eq, h.contexts_eq, h.channel?_eq⟩
      simp [isLoaded]
  · exact .inl ⟨_, rfl, rfl⟩

/-- Support for something else is loaded. -/
theorem Excerpt.load_other (h : r.Excerpt r') {name : String}
    (hname : name ≠ remoteProgramsChannel) {after : Registry} (hload : r.load name = .ok after) :
    after.Excerpt r' := by
  unfold Registry.load at hload
  split at hload
  · split at hload
    · cases hload
      exact h
    · cases hload
      refine ⟨h.available_eq, ?_, h.subscribers_eq, h.contexts_eq, h.channel?_eq⟩
      rw [h.isLoaded_eq]
      simp [isLoaded, Ne.symm hname]
  · cases hload

/-- Both sides put the same subscriber at the end of the list. -/
theorem Excerpt.subscribe (h : r.Excerpt r') (subscriber : Subscriber) :
    (r.subscribe subscriber).Excerpt (r'.subscribe subscriber) := by
  refine ⟨h.available_eq, h.isLoaded_eq, ?_, h.contexts_eq, h.channel?_eq⟩
  show r'.subscribers ++ _ = r.subscribers ++ _
  rw [h.subscribers_eq]

end Registry

/-! ### Stretches on a context for remote programs -/

/-- The same stretch in what remains for remote programs. -/
structure Stretch.Excerpt (stretch stretch' : Stretch) : Prop where
  registry : stretch.1.Excerpt stretch'.1
  progress_eq : stretch'.2 = stretch.2.renumber stretch.1.place

namespace Registry

variable {r r' : Registry} {c : ContextId} {context : Context}

/-- Two registries that belong together end a stretch in the same way. -/
theorem Excerpt.stretch (h : r.Excerpt r') (progress : Progress) :
    Stretch.Excerpt (r, progress) (r', progress.renumber r.place) :=
  ⟨h, rfl⟩

/-- Both sides refuse for the same reason. -/
theorem Excerpt.refuse (h : r.Excerpt r') (cause : Error) :
    Stretch.Excerpt (r.refuse cause) (r'.refuse cause) :=
  ⟨h, rfl⟩

/-- Both sides finish. -/
theorem Excerpt.done (h : r.Excerpt r') : Stretch.Excerpt r.done r'.done :=
  ⟨h, rfl⟩

/-- Putting a channel for remote programs into a phase does the same on both sides. -/
theorem Excerpt.setPhase (h : r.Excerpt r') (hcontext : r.context? c = some context)
    (hname : context.name = remoteProgramsChannel) (phase : Phase) :
    (r.setPhase c phase).Excerpt (r'.setPhase (r.place c) phase) :=
  h.update hcontext hname rfl

/-- A phase does not change the place of any context. -/
theorem place_setPhase (r : Registry) (c : ContextId) (phase : Phase) :
    (r.setPhase c phase).place = r.place :=
  place_update fun _ _ => rfl

/-- An opening that fails does the same on both sides. -/
theorem Excerpt.failOpening (h : r.Excerpt r') (hcontext : r.context? c = some context)
    (hname : context.name = remoteProgramsChannel) (guarded : Bool) (cause : Error) :
    Stretch.Excerpt (r.failOpening c guarded cause)
      (r'.failOpening (r.place c) guarded cause) := by
  cases guarded with
  | true => exact (h.setPhase hcontext hname .failed).refuse cause
  | false => exact h.refuse cause

/-- The end of an opening does the same on both sides. -/
theorem Excerpt.completeOpening (h : r.Excerpt r') {o : Opening}
    (hcontext : r.context? o.context = some context)
    (hname : context.name = remoteProgramsChannel) :
    Stretch.Excerpt (r.completeOpening o) (r'.completeOpening (o.renumber r.place)) := by
  unfold Registry.completeOpening Opening.renumber
  simp only [hcontext, h.context? hcontext hname]
  split
  · cases context.phase.completeHandshake with
    | ok phase => exact (h.setPhase hcontext hname phase).done
    | error cause => exact h.refuse cause
  · exact h.done

/-- An opening is begun with a context that may have taken another phase since. -/
theorem Excerpt.beginOpening (h : r.Excerpt r') {before : Context}
    (hcontext : r.context? c = some before) (hname : before.name = remoteProgramsChannel)
    (context : Context) (guarded : Bool) :
    Stretch.Excerpt (r.beginOpening c context guarded)
      (r'.beginOpening (r.place c) context guarded) := by
  unfold Registry.beginOpening
  cases context.session with
  | none => exact h.failOpening hcontext hname guarded _
  | some session => exact ⟨h, rfl⟩

/-- A handshake does the same on both sides. -/
theorem Excerpt.handshake (h : r.Excerpt r') (hcontext : r.context? c = some context)
    (hname : context.name = remoteProgramsChannel) :
    Stretch.Excerpt (r.handshake c context) (r'.handshake (r.place c) context) := by
  unfold Registry.handshake
  cases context.phase.beginHandshake with
  | error cause => exact h.refuse cause
  | ok phase =>
    have hset := h.setPhase hcontext hname phase
    have hbegin := hset.beginOpening (context?_setPhase_self hcontext phase) hname context true
    rw [place_setPhase] at hbegin
    exact hbegin

/-- A report does the same on both sides. -/
theorem Excerpt.report (h : r.Excerpt r') (hcontext : r.context? c = some context)
    (hname : context.name = remoteProgramsChannel) (order : LaunchReport) :
    Stretch.Excerpt (r.report c context order) (r'.report (r.place c) context order) := by
  unfold Registry.report
  have hset := h.setPhase hcontext hname .failed
  split
  · exact h.done
  · cases context.session with
    | none => exact hset.done
    | some session => exact ⟨hset, rfl⟩

/-- An order that is handed to a channel for remote programs does the same on both sides. -/
theorem Excerpt.handle (h : r.Excerpt r') (hcontext : r.context? c = some context)
    (hname : context.name = remoteProgramsChannel) (order : ServerOrder) :
    Stretch.Excerpt (r.handle c context order) (r'.handle (r.place c) context order) := by
  unfold Registry.handle
  split
  · exact h.done
  · exact h.done
  · exact ⟨h, rfl⟩
  · exact h.handshake hcontext hname
  · exact h.handshake hcontext hname
  · exact h.report hcontext hname _

end Registry

/-- The name that an operation goes by. -/
def Operation.name? : Operation → Option String
  | load name | connect name _ | disconnect name | dispatch name _ => some name
  | loadRemotePrograms _ => some remoteProgramsChannel
  | _ => none

/-- An activity on a context for remote programs, or on none. -/
structure Activity.IsRemote (r : Registry) (activity : Activity) : Prop where
  context : ∀ c, activity.context? = some c →
    ∃ context, r.context? c = some context ∧ context.name = remoteProgramsChannel
  shows : ∀ name c, activity.shows? = some (name, c) → name = remoteProgramsChannel

namespace Registry

variable {r r' : Registry}

/-- The first stretch of an operation for remote programs. -/
theorem Excerpt.start (h : r.Excerpt r')
    (hnamed : ∀ c, r.channel? remoteProgramsChannel = some c → r.Bears remoteProgramsChannel c)
    {operation : Operation} (hname : operation.name? = some remoteProgramsChannel) :
    Stretch.Excerpt (operation.start r) (operation.start r') := by
  have hlt : ∀ c, r.channel? remoteProgramsChannel = some c → c < r.contexts.length := by
    intro c hchannel
    obtain ⟨context, hcontext, -⟩ := (hnamed c hchannel).context
    exact (List.getElem?_eq_some_iff.mp hcontext).1
  cases operation with
  | load name =>
    cases hname
    simp only [Operation.start]
    obtain ⟨cause, hload, hload'⟩ | ⟨after, after', hload, hload', hexcerpt⟩ := h.load
    · rw [hload, hload']
      exact h.refuse cause
    · rw [hload, hload']
      exact hexcerpt.done
  | loadRemotePrograms session =>
    simp only [Operation.start]
    obtain ⟨cause, hload, hload'⟩ | ⟨after, after', hload, hload', hexcerpt⟩ := h.load
    · rw [hload, hload']
      exact ⟨h, rfl⟩
    · rw [hload, hload']
      exact ⟨hexcerpt.subscribe _, rfl⟩
  | connect name transport =>
    cases hname
    simp only [Operation.start, beginConnect, h.isLoaded_eq, h.subscribers_eq]
    split
    · -- The new context gets the next number on both sides.
      have hplace : ∀ context : Context, (r.create context).place r.nextContext = r'.nextContext :=
        fun context => (place_create context (Nat.le_refl _)).trans (place_nextContext h)
      refine ⟨h.create hlt _, ?_⟩
      show Progress.continues (.notifying _ r'.nextContext _) = Progress.renumber _ _
      simp only [Progress.renumber, Activity.renumber, hplace]
    · exact h.refuse _
  | disconnect name =>
    cases hname
    simp only [Operation.start]
    generalize hbefore : r.disconnect remoteProgramsChannel = after
    generalize hbefore' : r'.disconnect remoteProgramsChannel = after'
    have hrel := h.disconnect hnamed
    rw [hbefore, hbefore'] at hrel
    cases hrel with
    | none => exact ⟨h, rfl⟩
    | some hexcerpt => exact ⟨hexcerpt, rfl⟩
  | dispatch name order =>
    cases hname
    simp only [Operation.start, h.channel?_eq]
    cases hchannel : r.channel? remoteProgramsChannel with
    | none => exact h.refuse _
    | some c =>
      obtain ⟨context, hcontext, hname⟩ := (hnamed c hchannel).context
      simp only [Option.map_some, hcontext, h.context? hcontext hname]
      exact h.handle hcontext hname order
  | _ => cases hname

/-- A later stretch that the outside is not asked for. -/
theorem Excerpt.resume (h : r.Excerpt r') (free : SessionId → Bool) {activity : Activity}
    (hremote : activity.IsRemote r) :
    Stretch.Excerpt (activity.resume free r)
      ((activity.renumber r.place).resume free r') := by
  cases activity with
  | opening o left =>
    cases left with
    | nil =>
      obtain ⟨context, hcontext, hname⟩ := hremote.context o.context rfl
      exact h.completeOpening hcontext hname
    | cons order left =>
      simp only [Activity.renumber, Activity.resume]
      show Stretch.Excerpt _ (if free o.session.id = true then _ else _)
      split
      · exact h.stretch _
      · exact h.stretch _
  | notifying name c left =>
    obtain ⟨context, hcontext, hname⟩ := hremote.context c rfl
    obtain rfl := hremote.shows name c rfl
    cases left with
    | nil => exact ⟨h.publish c, rfl⟩
    | cons subscriber left =>
      cases subscriber with
      | remotePrograms session =>
        -- To arm a context changes its session and not its name, so all places stay.
        have harm : ∀ context : Context, (context.arm session).name = context.name :=
          fun context => (@Context.Changes.told false context session).name_eq
        have hplace : (r.update c (Context.arm session)).place = r.place :=
          place_update fun context _ => harm context
        refine ⟨h.update hcontext hname (harm context), ?_⟩
        show Progress.continues _ = Progress.renumber (r.update c (Context.arm session)).place _
        rw [hplace]
        rfl
      | custom subscriber => exact h.stretch _
  | acquiring session =>
    simp only [Activity.renumber, Activity.resume]
    split
    · exact h.stretch _
    · exact h.stretch _
  | _ => exact h.stretch _

/-- A later stretch that goes on with a reply. -/
theorem Excerpt.answer (h : r.Excerpt r') (reply : Except Error Unit) {activity : Activity}
    (hremote : activity.IsRemote r) :
    Stretch.Excerpt (activity.answer reply r)
      ((activity.renumber r.place).answer reply r') := by
  cases activity with
  | sending o order left =>
    obtain ⟨context, hcontext, hname⟩ := hremote.context o.context rfl
    cases reply with
    | ok _ => exact h.stretch _
    | error cause => exact h.failOpening hcontext hname o.guarded cause
  | calling =>
    cases reply with
    | ok _ => exact h.done
    | error cause => exact h.refuse cause
  | aborting => exact h.done
  | holding session => exact h.done
  | _ => exact h.stretch _

end Registry

end RemotePrograms
