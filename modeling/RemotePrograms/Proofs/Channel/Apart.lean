import RemotePrograms.Proofs.Channel.Excerpt

/-!
# `RemotePrograms.Proofs.Channel.Apart`: stretches for other channels

An operation for another channel than the one for remote programs can load it, connect it and take
it away. If only remote programs are told of new channels, then all that such an operation leaves to
do is to tell them (`Progress.IsApart`), and they do not want the channel. `Registry.Apart` says of
a stretch that an excerpt for remote programs is not affected by it, and that no context gets a
session or a handler. This holds of the first stretch (`apart_start`) and of those that show the
channel (`apart_resume`).
-/

set_option autoImplicit false

namespace RemotePrograms

/-- Everybody on a list registered for remote programs. -/
def OnlyRemote (left : List Subscriber) : Prop :=
  ∀ subscriber ∈ left, ∃ session, subscriber = .remotePrograms session

/-! ### Stretches for other channels -/

/-- What is left of an operation for another channel: it is finished, or it goes on to show the
channel to subscribers for remote programs. -/
inductive Progress.IsApart : Progress → Prop where
  | returned (result : Result) : IsApart (.returned result)
  | continues {name : String} {left : List Subscriber} (c : ContextId) :
      name ≠ remoteProgramsChannel → OnlyRemote left →
      IsApart (.continues (.notifying name c left))

namespace Registry

/-- A stretch for another channel. What remains for remote programs is the same, and no context gets
a session or a handler. -/
structure Apart (r : Registry) (stretch : Stretch) : Prop where
  excerpt : ∀ r', r.Excerpt r' → stretch.1.Excerpt r'
  progress : stretch.2.IsApart
  session?_eq : ∀ c, (stretch.1.context? c).bind Context.session
    = (r.context? c).bind Context.session
  handler?_eq : ∀ c, (stretch.1.context? c).bind Context.handler
    = (r.context? c).bind Context.handler

variable {r : Registry} {name : String}

/-- A stretch that changes nothing is apart if what is left of it is. -/
theorem Apart.same {progress : Progress} (h : progress.IsApart) : r.Apart (r, progress) :=
  ⟨fun _ hexcerpt => hexcerpt, h, fun _ => rfl, fun _ => rfl⟩

/-- Whoever does not have the name of the channel for remote programs is not armed. -/
theorem IsOrderly.isBare (h : r.IsOrderly) {c : ContextId} {context : Context}
    (hcontext : r.context? c = some context) (hname : context.name ≠ remoteProgramsChannel) :
    context.IsBare :=
  (h c context hcontext).resolve_left fun harmed => hname harmed.name_eq

/-- A channel without a handler drops every order. -/
theorem handle_of_bare {c : ContextId} {context : Context} (h : context.IsBare)
    (order : ServerOrder) : r.handle c context order = r.done := by
  unfold handle
  rw [h.handler_eq]

/-- An order for another channel finds no handler and changes nothing. -/
theorem start_dispatch_of_other (horderly : r.IsOrderly)
    (hnamed : ∀ name c, r.channel? name = some c → r.Bears name c)
    (hother : name ≠ remoteProgramsChannel) {c : ContextId} (hchannel : r.channel? name = some c)
    (order : ServerOrder) : (Operation.dispatch name order).start r = r.done := by
  obtain ⟨context, hcontext, hname⟩ := (hnamed name c hchannel).context
  simp only [Operation.start, hchannel, hcontext]
  exact handle_of_bare (horderly.isBare hcontext (hname ▸ hother)) order

/-- The first stretch of an operation for another channel. -/
theorem apart_start (horderly : r.IsOrderly)
    (hnamed : ∀ name c, r.channel? name = some c → r.Bears name c)
    (hsubscribers : OnlyRemote r.subscribers) {operation : Operation}
    (hname : operation.name? = some name) (hother : name ≠ remoteProgramsChannel) :
    r.Apart (operation.start r) := by
  cases operation with
  | load name =>
    cases hname
    simp only [Operation.start]
    split
    · rename_i after hload
      exact ⟨fun r' h => h.load_other hother hload, .returned _,
        fun c => congrArg (Option.bind · Context.session) (context?_load hload c),
        fun c => congrArg (Option.bind · Context.handler) (context?_load hload c)⟩
    · exact .same (.returned _)
  | loadRemotePrograms session =>
    cases hname
    exact absurd rfl hother
  | connect name transport =>
    cases hname
    simp only [Operation.start, beginConnect]
    split
    · -- The new context has neither a session nor a handler.
      have hnew : ∀ {α : Type} (field : Context → Option α),
          field { name, transport, phase := .channelConnected } = none → ∀ c,
          ((r.create { name, transport, phase := .channelConnected }).context? c).bind field
            = (r.context? c).bind field := by
        intro α field hfield c
        rw [context?_create]
        split
        · rename_i hc
          rw [hc, context?_nextContext]
          exact hfield
        · rfl
      refine ⟨fun r' h => ?_, .continues _ hother hsubscribers, hnew _ rfl, hnew _ rfl⟩
      have hcreate := h.create (fun c hchannel => ?_)
        { name, transport, phase := .channelConnected }
      · rwa [if_neg (by simpa [Context.isRemote] using hother)] at hcreate
      · obtain ⟨context, hcontext, -⟩ := (hnamed _ c hchannel).context
        exact (List.getElem?_eq_some_iff.mp hcontext).1
    · exact .same (.returned _)
  | disconnect name =>
    cases hname
    simp only [Operation.start]
    split
    · rename_i after hdisconnect
      -- Only a phase changes.
      have hold : ∀ {α : Type} (field : Context → Option α),
          (∀ (context : Context) (phase : Phase), field { context with phase } = field context) →
          ∀ c, (after.context? c).bind field = (r.context? c).bind field := by
        intro α field hfield c
        rw [context?_disconnect hdisconnect]
        split
        · cases r.context? c with
          | none => rfl
          | some context => exact hfield context _
        · rfl
      exact ⟨fun r' h => h.disconnect_other hother (hnamed name) hdisconnect, .returned _,
        hold _ fun _ _ => rfl, hold _ fun _ _ => rfl⟩
    · exact .same (.returned _)
  | dispatch name order =>
    cases hname
    cases hchannel : r.channel? name with
    | none =>
      simp only [Operation.start, hchannel]
      exact .same (.returned _)
    | some c =>
      rw [start_dispatch_of_other horderly hnamed hother hchannel]
      exact .same (.returned _)
  | _ => cases hname

/-- The showing of another channel goes on. -/
theorem apart_resume (free : SessionId → Bool) (hother : name ≠ remoteProgramsChannel)
    {c : ContextId} {left : List Subscriber} (hleft : OnlyRemote left) (hbears : r.Bears name c) :
    r.Apart ((Activity.notifying name c left).resume free r) := by
  cases left with
  | nil =>
    exact ⟨fun r' h => h.publish_other hother c, .returned _, fun _ => rfl, fun _ => rfl⟩
  | cons subscriber left =>
    obtain ⟨session, rfl⟩ := hleft subscriber List.mem_cons_self
    -- A context with another name cannot be armed.
    have hsame : r.update c (Context.arm session) = r := by
      refine update_eq_self fun context hcontext => Context.arm_of_not_canArm fun hcan => ?_
      obtain ⟨other, hcontext', hname⟩ := hbears.context
      rw [hcontext] at hcontext'
      cases hcontext'
      exact hother (hname.symm.trans hcan.1)
    show r.Apart (r.update c (Context.arm session), .continues (.notifying name c left))
    rw [hsame]
    exact .same (.continues c hother fun other hmem => hleft other (List.mem_cons_of_mem _ hmem))

end Registry

end RemotePrograms
