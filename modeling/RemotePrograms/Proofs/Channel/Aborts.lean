import RemotePrograms.Proofs.Channel.Confined
import RemotePrograms.Proofs.Stream.Verdict

/-!
# `RemotePrograms.Proofs.Channel.Aborts`: every failed launch ends its session once

A session is ended in one place only, where a report of failure is handed to a context that was
armed for it. Nothing else that goes wrong ends it, whether a record is not sent, a handshake comes
at the wrong time or a channel is closed. So there is an account to be kept. `struck?` says of a
move, before it is made, which session it will end, and `aborts_run` says that a run ends exactly
these, in their order.

Several connections may work for the same sessions. `Connections` are the channels of each of them,
and a run moves one of them at a time. The write locks of the sessions are not shared here: where
another connection holds a lock, an opening waits, and that is a move that is not made. Whatever
holds of all these runs therefore holds with shared locks too.
-/

set_option autoImplicit false

namespace RemotePrograms

/-! ### Ends of sessions -/

/-- The end of a session that is asked of the outside. -/
def Contact.abort? : Contact → Option Abort
  | .abort session reason message => some ⟨session, reason, message⟩
  | _ => none

/-- The end of a session that the outside sees. -/
def Event.abort? : Event → Option Abort
  | .contact _ asked => asked.abort?
  | .returned _ _ => none

/-- The end of a session that a stretch brings. -/
def Progress.abort? : Progress → Option Abort
  | .waits contact _ => contact.abort?
  | _ => none

/-- What the outside sees of a stretch ends a session exactly if the stretch does. -/
theorem Progress.abort?_event? (progress : Progress) (id : ActivityId) :
    (progress.event? id).bind Event.abort? = progress.abort? := by
  cases progress <;> rfl

/-- Whether a move ends a session by itself. -/
def Move.isAbort : Move → Bool
  | .call (.abort _ _ _) => true
  | _ => false

/-- The session that a context is armed for. -/
def Context.armedFor? (context : Context) : Option Session :=
  if context.handler.isSome then context.session else none

/-- Where handler and session come together, a context is armed for the session that it has. -/
theorem Context.IsCoupled.armedFor?_eq {context : Context} (h : context.IsCoupled) :
    context.armedFor? = context.session := by
  cases h with
  | bare hhandler hsession => simp [armedFor?, hhandler, hsession]
  | armed hhandler hsession _ => simp [armedFor?, hhandler]

/-! ### Reports that are handed in -/

namespace Registry

/-- The report on the program that an operation hands to a context, by its channel's name or
directly. -/
def handed? (r : Registry) : Operation → Option (ContextId × LaunchReport)
  | .dispatch name (.launchReport report) => (r.channel? name).map fun c => (c, report)
  | .call c (.dispatch (.launchReport report)) => some (c, report)
  | .call c (.report report) => some (c, report)
  | _ => none

/-- The session that an operation strikes: it hands a report of failure to a context that is armed
for this session. The phase of the context is of no account. -/
def struck? (r : Registry) (operation : Operation) : Option Session :=
  (r.handed? operation).bind fun (c, report) =>
    if report.result.isSuccess then none else (r.context? c).bind Context.armedFor?

variable {r : Registry}

/-- A report of failure ends the session of its context, if there is one. A report of success ends
none. -/
theorem abort?_report (id : ContextId) (context : Context) (order : LaunchReport) :
    (r.report id context order).2.abort?
      = if order.result.isSuccess then none else context.session.map Session.launchFailure := by
  unfold report
  split
  · rfl
  · simp only
    cases context.session with
    | none => rfl
    | some session => rfl

/-- A report of failure makes its context fail and changes nothing else. -/
theorem registry_report {id : ContextId} {context : Context} {order : LaunchReport}
    (hfailure : ¬ order.result.isSuccess = true) :
    (r.report id context order).1 = r.setPhase id .failed := by
  unfold report
  rw [if_neg hfailure]
  simp only
  split
  · rfl
  · rfl

/-- To begin an opening ends no session. -/
theorem abort?_beginOpening (id : ContextId) (context : Context) (guarded : Bool) :
    (r.beginOpening id context guarded).2.abort? = none := by
  unfold beginOpening
  split
  · rfl
  · rfl

/-- A handshake ends no session, whether an opening begins or not. -/
theorem abort?_handshake (id : ContextId) (context : Context) :
    (r.handshake id context).2.abort? = none := by
  unfold handshake
  split
  · rfl
  · exact abort?_beginOpening id context true

/-- The end of an opening ends no session. -/
theorem abort?_completeOpening (o : Opening) : (r.completeOpening o).2.abort? = none := by
  obtain ⟨result, hreturns⟩ := r.completeOpening_returns o
  rw [hreturns]
  rfl

/-- An order that is no report on the program ends no session. -/
theorem abort?_handle_of_ne (id : ContextId) (context : Context) {order : ServerOrder}
    (h : ∀ report, order ≠ .launchReport report) : (r.handle id context order).2.abort? = none := by
  unfold handle
  split
  · rfl
  · rfl
  · rfl
  · exact abort?_handshake id context
  · exact abort?_handshake id context
  · exact absurd rfl (h _)

/-- The three ways to hand in a report. -/
theorem handed?_cases {operation : Operation} {c : ContextId} {report : LaunchReport}
    (h : r.handed? operation = some (c, report)) :
    (∃ name, operation = .dispatch name (.launchReport report) ∧ r.channel? name = some c) ∨
      operation = .call c (.dispatch (.launchReport report)) ∨
      operation = .call c (.report report) := by
  unfold handed? at h
  split at h
  · rcases Option.map_eq_some_iff.mp h with ⟨c', hchannel, heq⟩
    cases heq
    exact .inl ⟨_, rfl, hchannel⟩
  · cases h
    exact .inr (.inl rfl)
  · cases h
    exact .inr (.inr rfl)
  · cases h

/-- What becomes of a report that is handed to a context: it is handled, or, where there is nobody
to handle it, dropped. -/
theorem start_of_handed {operation : Operation} {c : ContextId} {report : LaunchReport}
    {context : Context} (hhanded : r.handed? operation = some (c, report))
    (hcontext : r.context? c = some context) (hcoupled : context.IsCoupled) :
    operation.start r = r.report c context report ∨
      (context.handler = none ∧ operation.start r = r.done) := by
  -- The three ways to hand in a report differ in how they find the context.
  have hhandle : r.handle c context (.launchReport report) = r.report c context report ∨
      (context.handler = none ∧ r.handle c context (.launchReport report) = r.done) := by
    cases hcoupled with
    | bare hhandler _ =>
      refine .inr ⟨hhandler, ?_⟩
      unfold handle
      rw [hhandler]
    | armed hhandler _ _ =>
      refine .inl ?_
      unfold handle
      rw [hhandler]
  rcases handed?_cases hhanded with ⟨name, rfl, hchannel⟩ | rfl | rfl
  · simp only [Operation.start, hchannel, hcontext]
    exact hhandle
  · simp only [Operation.start, hcontext]
    exact hhandle
  · simp only [Operation.start, hcontext]
    exact .inl rfl

/-- A report that is handed in ends the session of its context, if it is one of failure. -/
theorem abort?_start_of_handed {operation : Operation} {c : ContextId} {report : LaunchReport}
    {context : Context} (hhanded : r.handed? operation = some (c, report))
    (hcontext : r.context? c = some context) (hcoupled : context.IsCoupled) :
    (operation.start r).2.abort? = (r.struck? operation).map Session.launchFailure := by
  have hstruck : r.struck? operation
      = if report.result.isSuccess then none else context.session := by
    simp only [struck?, hhanded, Option.bind_some, hcontext, hcoupled.armedFor?_eq]
  rcases start_of_handed hhanded hcontext hcoupled with hstart | ⟨hhandler, hstart⟩
  · rw [hstart, abort?_report, hstruck]
    split
    · rfl
    · rfl
  · -- Nobody handles it, and then there is no session either.
    have hsession : context.session = none := by
      cases hcoupled with
      | bare _ hsession => exact hsession
      | armed hsome =>
        rw [hhandler] at hsome
        cases hsome
    rw [hstart, hstruck, hsession, ite_self]
    rfl

/-- An operation ends the session that it strikes, and no other. -/
theorem abort?_start (hcoupled : ∀ c context, r.context? c = some context → context.IsCoupled)
    (operation : Operation) (habort : (Move.call operation).isAbort = false) :
    (operation.start r).2.abort? = (r.struck? operation).map Session.launchFailure := by
  have hquiet : r.handed? operation = none → (operation.start r).2.abort? = none →
      (operation.start r).2.abort? = (r.struck? operation).map Session.launchFailure := by
    intro hhanded hnone
    rw [hnone, struck?, hhanded]
    rfl
  cases hhanded : r.handed? operation with
  | some entry =>
    obtain ⟨c, report⟩ := entry
    cases hcontext : r.context? c with
    | some context => exact abort?_start_of_handed hhanded hcontext (hcoupled c context hcontext)
    | none =>
      -- A report to nobody is dropped.
      have hstruck : r.struck? operation = none := by
        simp only [struck?, hhanded, Option.bind_some, hcontext, Option.bind_none, ite_self]
      rw [hstruck]
      rcases handed?_cases hhanded with ⟨name, rfl, hchannel⟩ | rfl | rfl
      · simp only [Operation.start, hchannel, hcontext]
        rfl
      · simp only [Operation.start, hcontext]
        rfl
      · simp only [Operation.start, hcontext]
        rfl
  | none =>
    refine hquiet hhanded ?_
    have hstarts := operation.starts r
    generalize operation.start r = stretch at hstarts ⊢
    cases hstarts with
    | @handles name order id context hchannel hcontext =>
      refine abort?_handle_of_ne id context fun report horder => ?_
      subst horder
      simp [handed?, hchannel] at hhanded
    | @calls id request context hcontext =>
      cases request with
      | dispatch order =>
        refine abort?_handle_of_ne id context fun report horder => ?_
        subst horder
        cases hhanded
      | report order => cases hhanded
      | sendOpening => exact abort?_beginOpening id context false
      | install handler =>
        simp only [call]
        split
        · rfl
        · rfl
      | move transition =>
        simp only [call]
        split
        · rfl
        · rfl
      | _ => rfl
    | aborts => cases habort
    -- The others return at once or go on by themselves.
    | _ => rfl

/-- No later stretch ends a session. -/
theorem abort?_of_continues {free : SessionId → Bool} {activity : Activity} {stretch : Stretch}
    (h : activity.Continues free r stretch) : stretch.2.abort? = none := by
  cases h with
  | completes => exact abort?_completeOpening _
  | _ => rfl

end Registry

/-! ### Moves -/

namespace Machine

variable {m : Machine}

/-- The session that a move strikes. -/
def struck? (m : Machine) : Move → Option Session
  | .call operation => m.registry.struck? operation
  | _ => none

/-- A move ends the session that it strikes, and no other. -/
theorem abort?_step (h : m.IsCoupled) {move : Move} (habort : move.isAbort = false) :
    (m.step move).2.bind Event.abort? = (m.struck? move).map Session.launchFailure := by
  cases hmove : move.activity? with
  | none =>
    cases move with
    | call operation =>
      rw [event_step_call, Progress.abort?_event?]
      exact Registry.abort?_start h operation habort
    | resume id | answer id reply => cases hmove
  | some id =>
    have hstruck : m.struck? move = none := by
      cases move with
      | call operation => cases hmove
      | resume other | answer other reply => rfl
    rw [hstruck]
    rcases m.carries_cases hmove with ⟨activity, stretch, -, hcontinues, hstep⟩ | hstep
    · rw [hstep, event_enter, Progress.abort?_event?, Registry.abort?_of_continues hcontinues]
      rfl
    · rw [hstep]
      rfl

/-- When a session is ended, the context that the report was handed to has failed. -/
theorem failed_of_abort (h : m.IsCoupled) {move : Move} (hmove : move.isAbort = false)
    {abort : Abort} (hevent : (m.step move).2.bind Event.abort? = some abort) :
    ∃ operation c report context session, move = .call operation ∧
      m.registry.handed? operation = some (c, report) ∧ report.result.isSuccess = false ∧
      m.registry.context? c = some context ∧ context.armedFor? = some session ∧
      abort = session.launchFailure ∧
      (m.step move).1.registry.context? c = some { context with phase := .failed } := by
  rw [abort?_step h hmove] at hevent
  rcases Option.map_eq_some_iff.mp hevent with ⟨session, hstruck, habort⟩
  cases move with
  | call operation =>
    rcases Option.bind_eq_some_iff.mp hstruck with ⟨⟨c, report⟩, hhanded, hfailed⟩
    simp only at hfailed
    split at hfailed
    · cases hfailed
    · rename_i hfailure
      rcases Option.bind_eq_some_iff.mp hfailed with ⟨context, hcontext, harmed⟩
      refine ⟨operation, c, report, context, session, rfl, hhanded, by simpa using hfailure,
        hcontext, harmed, habort.symm, ?_⟩
      rcases Registry.start_of_handed hhanded hcontext (h c context hcontext)
        with hstart | ⟨hhandler, -⟩
      · rw [step_call, registry_enter, hstart, Registry.registry_report hfailure,
          Registry.setPhase, Registry.context?_update, if_pos rfl, hcontext]
        rfl
      · -- An armed context has a handler, so the report is not dropped.
        simp [Context.armedFor?, hhandler] at harmed
  | resume id => cases hstruck
  | answer id reply => cases hstruck

/-- What a report comes to: it is handled at once, or it waits for the end of a session. -/
theorem step_of_handed (h : m.IsCoupled) {operation : Operation} {c : ContextId}
    {report : LaunchReport} {context : Context}
    (hhanded : m.registry.handed? operation = some (c, report))
    (hcontext : m.registry.context? c = some context) :
    (m.step (.call operation)).2 = some (.returned m.nextActivity (.ok .done)) ∨
      (m.step (.call operation)).1.activity? m.nextActivity = some .aborting := by
  rw [event_step_call, step_call, activity?_enter_self]
  rcases Registry.start_of_handed hhanded hcontext (h c context hcontext)
    with hstart | ⟨-, hstart⟩
  · rw [hstart, Registry.report]
    split
    · exact .inl rfl
    · simp only
      split
      · exact .inl rfl
      · exact .inr rfl
  · rw [hstart]
    exact .inl rfl

/-- An activity that waits for the end of a session goes on waiting or returns well. -/
theorem aborting_step {id : ActivityId} (haborting : m.activity? id = some .aborting)
    (hlt : id < m.nextActivity) (move : Move) :
    (m.step move).1.activity? id = some .aborting ∨
      (m.step move).2 = some (.returned id (.ok .done)) := by
  by_cases hown : move.activity? = some id
  · cases move with
    | call operation => cases hown
    | resume other =>
      cases hown
      have hidle := step_resume_idle fun activity hactivity => by
        rw [haborting] at hactivity
        cases hactivity
        rfl
      exact .inl (by rw [hidle]; exact haborting)
    | answer other reply =>
      cases hown
      rw [step_answer reply haborting rfl, event_enter]
      exact .inr rfl
  · exact .inl (by rw [activity?_step_ne hlt hown]; exact haborting)

/-- The end of a session lasts until the outside has answered it. Then the operation returns, and it
returns well. -/
theorem aborting_run {id : ActivityId} (haborting : m.activity? id = some .aborting)
    (hlt : id < m.nextActivity) (moves : List Move) :
    (m.run moves).1.activity? id = some .aborting ∨
      ∃ done, done <+: moves ∧ m.Finishes done id (.ok .done) := by
  induction moves generalizing m with
  | nil => exact .inl haborting
  | cons move moves ih =>
    rcases aborting_step haborting hlt move with hnext | hreturned
    · rcases ih hnext (Nat.lt_of_lt_of_le hlt (nextActivity_le_step m move))
        with hlast | ⟨done, hpart, before, last, rfl, hevent⟩
      · exact .inl hlast
      · exact .inr ⟨move :: (before ++ [last]), List.prefix_cons_inj move |>.mpr hpart,
          move :: before, last, rfl, hevent⟩
    · exact .inr ⟨[move], List.prefix_cons_inj move |>.mpr (List.nil_prefix), [], move, rfl,
        hreturned⟩

/-- Of two results of one activity the earlier one is the only one. -/
theorem Finishes.unique {id : ActivityId} {done moves : List Move} {result result' : Result}
    (hdone : m.Finishes done id result) (hlt : id < (m.run done).1.nextActivity)
    (hmoves : m.Finishes moves id result') (hpart : done <+: moves) : result' = result := by
  rcases hdone with ⟨before, last, rfl, hresult⟩
  rcases hmoves with ⟨before', last', rfl, hresult'⟩
  rcases hpart with ⟨rest, hrest⟩
  rw [run_append] at hlt
  rcases List.eq_nil_or_concat rest with rfl | ⟨rest, move, rfl⟩
  · rw [List.append_nil] at hrest
    rcases List.append_inj' hrest rfl with ⟨rfl, hlast⟩
    cases hlast
    rw [hresult] at hresult'
    cases hresult'
    rfl
  · -- A second result would be one of an activity that is finished.
    have hbefore : before ++ last :: rest = before' ∧ [move] = [last'] := by
      refine List.append_inj' ?_ rfl
      rw [← hrest]
      simp
    rcases hbefore with ⟨rfl, hmove⟩
    cases hmove
    exact absurd hresult' (not_returned_again before hlt hresult)

/-- The number that a call takes was given out, whatever happens behind the call. -/
theorem nextActivity_lt_run_call (operation : Operation) (moves : List Move) :
    m.nextActivity < (m.run (.call operation :: moves)).1.nextActivity := by
  refine Nat.lt_of_lt_of_le ?_ (nextActivity_le_run (m.step (.call operation)).1 moves)
  rw [nextActivity_step_call]
  exact Nat.lt_succ_self _

/-- A report that is handed to a context has come to its end well, or waits for the end of a
session. -/
theorem handed_run (h : m.IsCoupled) {operation : Operation} {c : ContextId}
    {report : LaunchReport} {context : Context}
    (hhanded : m.registry.handed? operation = some (c, report))
    (hcontext : m.registry.context? c = some context) (later : List Move) :
    (∃ part, part <+: later ∧
      m.Finishes (.call operation :: part) m.nextActivity (.ok .done)) ∨
    (m.run (.call operation :: later)).1.activity? m.nextActivity = some .aborting := by
  have hlt : m.nextActivity < (m.step (.call operation)).1.nextActivity :=
    nextActivity_lt_run_call operation []
  rcases step_of_handed h hhanded hcontext with hreturned | haborting
  · exact .inl ⟨[], List.nil_prefix, [], .call operation, rfl, hreturned⟩
  · rcases aborting_run haborting hlt later with hlast | ⟨done, hpart, before, last, rfl, hevent⟩
    · exact .inr hlast
    · exact .inl ⟨before ++ [last], hpart, .call operation :: before, last, rfl, hevent⟩

/-- A report that is handed to a context returns well: it cannot return otherwise, and unless it
has returned the next answer of the outside makes it, whatever that answer is. -/
theorem handed_returns (h : m.IsCoupled) {operation : Operation} {c : ContextId}
    {report : LaunchReport} {context : Context}
    (hhanded : m.registry.handed? operation = some (c, report))
    (hcontext : m.registry.context? c = some context) (later : List Move) :
    (∀ result, m.Finishes (.call operation :: later) m.nextActivity result →
      result = .ok .done) ∧
    ((∃ part, part <+: later ∧
        m.Finishes (.call operation :: part) m.nextActivity (.ok .done)) ∨
      ∀ reply, m.Finishes (.call operation :: later ++ [.answer m.nextActivity reply])
        m.nextActivity (.ok .done)) := by
  rcases handed_run h hhanded hcontext later with ⟨part, hpart, hdone⟩ | haborting
  · refine ⟨fun result hresult => ?_, .inl ⟨part, hpart, hdone⟩⟩
    exact hdone.unique (nextActivity_lt_run_call operation part) hresult
      (List.prefix_cons_inj _ |>.mpr hpart)
  · refine ⟨fun result hresult => ?_, .inr fun reply => ⟨_, _, rfl, ?_⟩⟩
    · -- What has returned does not wait.
      rcases hresult with ⟨before, last, heq, hevent⟩
      rw [heq, run_append] at haborting
      have hnone := activity?_of_returned hevent
      rw [show ((m.run before).1.run [last]).1 = ((m.run before).1.step last).1 from rfl, hnone]
        at haborting
      cases haborting
    · rw [step_answer reply haborting rfl, event_enter]
      rfl

/-- A report of success is of no consequence. -/
theorem step_of_success (h : m.IsCoupled) {operation : Operation} {c : ContextId}
    {report : LaunchReport} {context : Context}
    (hhanded : m.registry.handed? operation = some (c, report))
    (hcontext : m.registry.context? c = some context)
    (hsuccess : report.result.isSuccess = true) :
    (m.step (.call operation)).1.registry = m.registry ∧
      (m.step (.call operation)).2 = some (.returned m.nextActivity (.ok .done)) := by
  have hdone : operation.start m.registry = m.registry.done := by
    rcases Registry.start_of_handed hhanded hcontext (h c context hcontext)
      with hstart | ⟨-, hstart⟩
    · rw [hstart, Registry.report, if_pos hsuccess]
    · exact hstart
  rw [event_step_call, step_call, registry_enter, hdone]
  exact ⟨rfl, rfl⟩

end Machine

/-! ### Several connections -/

/-- The channels of several connections. -/
abbrev Connections := Nat → Machine

namespace Connections

/-- Connections on which nothing has happened. -/
def new (available : Nat → List String) : Connections :=
  fun i => .ofRegistry { available := available i }

/-- One move on one of the connections. -/
def step (n : Connections) (i : Nat) (move : Move) : Connections × Option Event :=
  (fun j => if j = i then ((n i).step move).1 else n j, ((n i).step move).2)

/-- A run: moves on any of the connections one after another. -/
def run (n : Connections) : List (Nat × Move) → Connections × List Event
  | [] => (n, [])
  | (i, move) :: moves =>
    let (next, event) := n.step i move
    let (last, events) := next.run moves
    (last, event.toList ++ events)

/-- The sessions that a run strikes, in their order. -/
def strikes (n : Connections) : List (Nat × Move) → List Session
  | [] => []
  | (i, move) :: moves => ((n i).struck? move).toList ++ (n.step i move).1.strikes moves

/-- Handler and session are coupled in every context of every connection. -/
def IsCoupled (n : Connections) : Prop :=
  ∀ i, (n i).IsCoupled

variable {n : Connections}

/-- A move on one connection keeps handlers and sessions together on all of them. -/
theorem isCoupled_step (h : n.IsCoupled) (i : Nat) {move : Move}
    (hleaves : move.leavesArming = true) : (n.step i move).1.IsCoupled := by
  intro j
  show Machine.IsCoupled (if j = i then ((n i).step move).1 else n j)
  split
  · exact Machine.isCoupled_step (h i) hleaves
  · exact h j

/-- So does a run over all connections. -/
theorem isCoupled_run (h : n.IsCoupled) (moves : List (Nat × Move))
    (hleaves : ∀ entry ∈ moves, entry.2.leavesArming = true) : (n.run moves).1.IsCoupled := by
  induction moves generalizing n with
  | nil => exact h
  | cons entry moves ih =>
    exact ih (isCoupled_step h entry.1 (hleaves entry List.mem_cons_self))
      fun other hother => hleaves other (List.mem_cons_of_mem _ hother)

/-- A run ends the sessions that it strikes. -/
theorem aborts_run (h : n.IsCoupled) (moves : List (Nat × Move))
    (hmoves : ∀ entry ∈ moves, entry.2.leavesArming = true ∧ entry.2.isAbort = false) :
    (n.run moves).2.filterMap Event.abort? = (n.strikes moves).map Session.launchFailure := by
  induction moves generalizing n with
  | nil => rfl
  | cons entry moves ih =>
    obtain ⟨i, move⟩ := entry
    have hmove := hmoves (i, move) List.mem_cons_self
    have hlater := ih (isCoupled_step h i hmove.1) fun other hother =>
      hmoves other (List.mem_cons_of_mem _ hother)
    -- The first move ends a session exactly if it strikes one, and nothing else ends any.
    have hfirst : ((n i).step move).2.toList.filterMap Event.abort?
        = (((n i).struck? move).toList).map Session.launchFailure := by
      have hstep := Machine.abort?_step (h i) hmove.2
      cases hevent : ((n i).step move).2 with
      | none =>
        rw [hevent] at hstep
        cases hstruck : (n i).struck? move with
        | none => rfl
        | some session =>
          rw [hstruck] at hstep
          cases hstep
      | some event =>
        rw [hevent, Option.bind_some] at hstep
        rw [Option.toList_some, List.filterMap_cons, hstep]
        cases (n i).struck? move with
        | none => rfl
        | some session => rfl
    rw [strikes, List.map_append, ← hfirst, ← hlater]
    show ((n.step i move).2.toList ++ _).filterMap Event.abort? = _
    rw [List.filterMap_append]
    rfl

end Connections

/-! ### The property -/

/-- The ends of sessions can be accounted for. Over any run of any number of connections, in which
contexts are armed by the library and nobody outside ends a session, the sessions are ended in the
order in which they are struck, once for each report of failure that is handed to a context armed
for the session, whatever the phase of the context. They are ended as unavailable, and with the one
message that there is for it. In the moment in which a session is ended its context has failed.

A report that is handed to any context returns well: at once, or with the answer to the end of the
session, whatever happens before that answer and whatever it is. A report of success leaves all the
channels as they are and asks nothing of the outside. -/
theorem aborts_accounted (available : Nat → List String) (moves : List (Nat × Move))
    (hmoves : ∀ entry ∈ moves, entry.2.leavesArming = true ∧ entry.2.isAbort = false) :
    let start := Connections.new available
    let n := (start.run moves).1
    (start.run moves).2.filterMap Event.abort?
        = (start.strikes moves).map (fun session =>
            ⟨session.id, .peerUnavailable, launchFailedMessage⟩) ∧
    (∀ i move abort, move.isAbort = false → ((n i).step move).2.bind Event.abort? = some abort →
      ∃ operation c report context session, move = .call operation ∧
        (n i).registry.handed? operation = some (c, report) ∧ report.result.isSuccess = false ∧
        (n i).registry.context? c = some context ∧ context.armedFor? = some session ∧
        abort = ⟨session.id, .peerUnavailable, launchFailedMessage⟩ ∧
        ((n i).step move).1.registry.context? c
          = some { context with phase := .terminated .failed }) ∧
    ∀ i operation c report context, (n i).registry.handed? operation = some (c, report) →
      (n i).registry.context? c = some context →
      (∀ later,
        (∀ result, (n i).Finishes (.call operation :: later) (n i).nextActivity result →
          result = .ok .done) ∧
        ((∃ part, part <+: later ∧
            (n i).Finishes (.call operation :: part) (n i).nextActivity (.ok .done)) ∨
          ∀ reply, (n i).Finishes
            (.call operation :: later ++ [.answer (n i).nextActivity reply])
            (n i).nextActivity (.ok .done))) ∧
      (report.result.isSuccess = true →
        ((n i).step (.call operation)).1.registry = (n i).registry ∧
          ((n i).step (.call operation)).2
            = some (.returned (n i).nextActivity (.ok .done))) := by
  intro start n
  have hstart : start.IsCoupled := fun i => Machine.isCoupled_ofRegistry (available i)
  have hcoupled : n.IsCoupled :=
    Connections.isCoupled_run hstart moves fun entry hentry => (hmoves entry hentry).1
  refine ⟨Connections.aborts_run hstart moves hmoves, fun i move abort hmove hevent => ?_,
    fun i operation c report context hhanded hcontext => ⟨fun later => ?_, fun hsuccess => ?_⟩⟩
  · -- Each part is about one channel, for the connections share nothing.
    exact Machine.failed_of_abort (hcoupled i) hmove hevent
  · exact Machine.handed_returns (hcoupled i) hhanded hcontext later
  · exact Machine.step_of_success (hcoupled i) hhanded hcontext hsuccess

section Shared

/-- A session that two connections work for. -/
def sharedSession : Session := ⟨3, { program := "notepad" }⟩

/-- Its program is not found. -/
def notFound : ServerOrder := .launchReport ⟨⟨0⟩, .fileNotFound, 2, "notepad"⟩

/-- Something that no version of the protocol knows went wrong. -/
def unknownFailure : ServerOrder := .launchReport ⟨⟨0⟩, .unknown 0x99, 0, "notepad"⟩

/-- Both connections get a channel. -/
def sharedConnecting : List (Nat × Move) :=
  [(0, .call (.loadRemotePrograms sharedSession)), (0, .call (.connect remoteProgramsChannel 0)),
    (0, .resume 1), (0, .resume 1),
    (1, .call (.loadRemotePrograms sharedSession)), (1, .call (.connect remoteProgramsChannel 1)),
    (1, .resume 1), (1, .resume 1)]

/-- The first one hears that the program was not found. While the session is being ended, the
second one hears of a failure too, and the first one hears of its own once more. -/
def sharedFailures : List (Nat × Move) :=
  [(0, .call (.dispatch remoteProgramsChannel notFound)),
    (1, .call (.dispatch remoteProgramsChannel unknownFailure)),
    (0, .call (.call 0 (.dispatch notFound))),
    (0, .answer 3 (.ok ())), (1, .answer 2 (.ok ())), (0, .answer 2 (.ok ()))]

/-- Three reports of failure end the session three times, and a report of success does not. -/
theorem aborts_accounted_shared :
    let start := Connections.new fun _ => [remoteProgramsChannel]
    let ending : Abort := ⟨3, .peerUnavailable, launchFailedMessage⟩
    let m := (start.run sharedConnecting).1 1
    (start.run (sharedConnecting ++ sharedFailures)).2.filterMap Event.abort?
        = [ending, ending, ending] ∧
      (m.step (.call (.dispatch remoteProgramsChannel
        (.launchReport ⟨⟨0⟩, .ok, 0, "notepad"⟩)))).1.registry = m.registry := by
  intro start ending m
  have hended := aborts_accounted (fun _ => [remoteProgramsChannel])
    (sharedConnecting ++ sharedFailures) (by decide)
  have hgoes := aborts_accounted (fun _ => [remoteProgramsChannel]) sharedConnecting (by decide)
  refine ⟨hended.1.trans rfl, ?_⟩
  exact ((hgoes.2.2 1 (.dispatch remoteProgramsChannel _) 0 ⟨⟨0⟩, .ok, 0, "notepad"⟩
    ⟨remoteProgramsChannel, 1, some sharedSession, some .remotePrograms, .awaitingHandshake⟩
    rfl rfl).2 rfl).1

end Shared

end RemotePrograms
