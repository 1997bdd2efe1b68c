import RemotePrograms.Proofs.Channel.Alone
import RemotePrograms.Proofs.Stream.Inbox
import RemotePrograms.Proofs.Stream.Outbox
import RemotePrograms.Proofs.Stream.Verdict

/-!
# `RemotePrograms.Proofs.Stream.Serving`: a service does what is judged of its orders

`Service.Serves` is a service in the middle of its work: its channel for remote programs is
connected and in some phase, nothing is under way on it, and neither end of the stream has failed.
`handle_order` ties such a service to `react`. One order changes the phase, the queue and the ends
of sessions as the reaction says, and an order that is not handled ends the service.
-/

set_option autoImplicit false

namespace RemotePrograms

/-- The context of the channel that is served, in this phase. -/
def servedContext (session : Session) (phase : Phase) : Context :=
  ⟨remoteProgramsChannel, 0, some session, some .remotePrograms, phase⟩

/-- A registry on which the channel for remote programs is connected, in this phase. -/
structure Registry.Serves (r : Registry) (session : Session) (phase : Phase) : Prop where
  channel?_eq : r.channel? remoteProgramsChannel = some 0
  context?_eq : r.context? 0 = some (servedContext session phase)

/-- A registry serves its channel in whatever phase it is put into. -/
theorem Registry.Serves.setPhase {r : Registry} {session : Session} {phase : Phase}
    (h : r.Serves session phase) (phase' : Phase) :
    (r.setPhase 0 phase').Serves session phase' :=
  ⟨h.channel?_eq, context?_setPhase_self h.context?_eq phase'⟩

/-- Records that are sent one after another get into an open queue until one is not encoded. -/
theorem Opening.deliver_reply (o : Opening) (orders : List ClientOrder) {box : Outbox}
    (hopen : box.isOpen = true) (aborts : List Abort) :
    o.deliver Service.reply orders (box, aborts)
      = ((ClientOrder.encodeAll orders).1,
        ({ box with queue := box.queue ++ (ClientOrder.encodeAll orders).2 }, aborts)) := by
  induction orders generalizing box with
  | nil =>
    simp only [deliver, ClientOrder.encodeAll, List.append_nil]
  | cons order orders ih =>
    cases hencode : order.encode with
    | ok pdus =>
      have hreply : Service.reply (.send o.context o.transport order) (box, aborts)
          = (.ok (), ({ box with queue := box.queue ++ pdus }, aborts)) := by
        simp only [Service.reply, Outbox.send_of_encode hencode, hopen, Bool.true_or, if_true]
      have hopen' : ({ box with queue := box.queue ++ pdus } : Outbox).isOpen = true := hopen
      rw [deliver, hreply]
      show o.deliver _ orders _ = _
      rw [ih hopen']
      simp only [ClientOrder.encodeAll, hencode, List.append_assoc]
    | error cause =>
      -- A record that is not encoded leaves the queue alone, and so do those behind it.
      have hreply : Service.reply (.send o.context o.transport order) (box, aborts)
          = (.error cause, (box, aborts)) := by
        simp only [Service.reply, Outbox.send, hencode]
      rw [deliver, hreply]
      simp only [ClientOrder.encodeAll, hencode, List.append_nil]

section Dispatch

variable {r : Registry} {session : Session} {phase : Phase}

/-- A dispatched handshake has the effect of its reaction. -/
private theorem perform_handshake (next : ActivityId) (h : r.Serves session phase)
    {order : ServerOrder} (horder : order.isHandshake = true) {box : Outbox}
    (hopen : box.isOpen = true) (aborts : List Abort) :
    ∃ r', r'.Serves session (reactToHandshake session phase).phase ∧
      Machine.perform Service.reply (.dispatch remoteProgramsChannel order) ⟨r, [], next⟩
          (box, aborts)
        = (⟨r', [], next + 1⟩,
          ({ box with queue := box.queue ++ (reactToHandshake session phase).pdus }, aborts),
          some ((reactToHandshake session phase).result.map fun () => .done)) := by
  have hhands : r.HandsHandshake 0 (.dispatch remoteProgramsChannel order) :=
    ⟨h.channel?_eq, horder⟩
  have hstart := hhands.start_eq h.context?_eq rfl
  unfold reactToHandshake
  cases hbegin : phase.beginHandshake with
  | error cause =>
    have hrefuse : r.handshake 0 (servedContext session phase) = r.refuse cause := by
      simp only [Registry.handshake, servedContext, hbegin]
    refine ⟨r, h, ?_⟩
    rw [Machine.perform_returned (hstart.trans hrefuse)]
    simp only [List.append_nil, Except.map]
  | ok phase' =>
    -- Nobody else is about, so the phase is still in flight when the last record is queued.
    obtain rfl : phase' = .handshakeInFlight := by
      cases phase <;> cases hbegin <;> rfl
    have hopening : r.handshake 0 (servedContext session phase)
        = (r.setPhase 0 .handshakeInFlight,
          .continues (.opening ⟨0, 0, session, true⟩ session.settings.opening)) := by
      simp only [Registry.handshake, servedContext, hbegin, Registry.beginOpening]
    have hserves := h.setPhase .handshakeInFlight
    have hcomplete : (r.setPhase 0 .handshakeInFlight).completeOpening ⟨0, 0, session, true⟩
        = ((r.setPhase 0 .handshakeInFlight).setPhase 0 .running).done := by
      simp only [Registry.completeOpening, hserves.context?_eq, servedContext,
        Phase.completeHandshake, if_true]
    rw [Machine.perform_opening (hstart.trans hopening) hcomplete, Opening.deliver_reply _ _ hopen]
    rw [show ClientOrder.encodeAll session.settings.opening = session.settings.answer from rfl]
    obtain ⟨outcome, pdus⟩ := session.settings.answer
    cases outcome with
    | ok value => exact ⟨_, hserves.setPhase .running, rfl⟩
    | error cause => exact ⟨_, hserves.setPhase .failed, rfl⟩

/-- A dispatched order has the effect of its reaction. -/
theorem perform_dispatch (next : ActivityId) (h : r.Serves session phase) (order : ServerOrder)
    {box : Outbox} (hopen : box.isOpen = true) (aborts : List Abort) :
    ∃ r', r'.Serves session (react session phase order).phase ∧
      Machine.perform Service.reply (.dispatch remoteProgramsChannel order) ⟨r, [], next⟩
          (box, aborts)
        = (⟨r', [], next + 1⟩,
          ({ box with queue := box.queue ++ (react session phase order).pdus },
            aborts ++ (react session phase order).aborts),
          some ((react session phase order).result.map fun () => .done)) := by
  have hstart : (Operation.dispatch remoteProgramsChannel order).start r
      = r.handle 0 (servedContext session phase) order := by
    simp only [Operation.start, h.channel?_eq, h.context?_eq]
  obtain ⟨hhandshake, -⟩ | ⟨-, hfailure⟩ | ⟨hnot, hfailure⟩ := order.kind_cases
  · rw [react_of_isHandshake hhandshake, aborts_reactToHandshake, List.append_nil]
    exact perform_handshake next h hhandshake hopen aborts
  · rw [react_of_isFailure hfailure]
    cases order with
    | launchReport report =>
      have hsuccess : report.result.isSuccess = false := by simpa using hfailure
      have hreport : r.handle 0 (servedContext session phase) (.launchReport report)
          = (r.setPhase 0 .failed,
            .waits (.abort session.id .peerUnavailable launchFailedMessage) .aborting) := by
        simp only [Registry.handle, servedContext, Registry.report, hsuccess, Bool.false_eq_true,
          if_false]
      refine ⟨_, h.setPhase .failed, ?_⟩
      rw [Machine.perform_aborting (hstart.trans hreport)]
      simp only [Service.reply, Session.launchFailure, List.append_nil, Except.map]
    | _ => cases hfailure
  · rw [react_of_other hnot hfailure]
    -- An order that is neither is dropped, or a report that all went well.
    have hdone : r.handle 0 (servedContext session phase) order = r.done := by
      cases order with
      | handshake order => cases hnot
      | extendedHandshake order => cases hnot
      | launchReport report =>
        have hsuccess : report.result.isSuccess = true := by simpa using hfailure
        simp only [Registry.handle, servedContext, Registry.report, hsuccess, if_true]
      | other type body => rfl
    refine ⟨r, h, ?_⟩
    rw [Machine.perform_returned (hstart.trans hdone)]
    simp only [List.append_nil, Except.map]

end Dispatch

/-! ### The service -/

namespace Service

/-- A service in the middle of its work, whose channel is in this phase. -/
structure Serves (s : Service) (session : Session) (phase : Phase) : Prop where
  registry : s.machine.registry.Serves session phase
  idle : s.machine.activities = []
  channel_eq : s.channel = remoteProgramsChannel
  isOpen : s.outbox.isOpen = true
  writeFailure_eq : s.writeFailure = none
  outcome_eq : s.outcome = none

/-- While no write fails, all that is queued is written in the end. -/
theorem drain_eq {s : Service} (h : s.writeFailure = none) (outcome : Except Error Unit) :
    s.drain outcome
      = { s with
          outbox := ⟨[], false⟩
          written := s.written ++ s.outbox.queue
          outcome := some outcome } := by
  cases hqueue : s.outbox.queue with
  | nil =>
    simp only [drain, hqueue, finish, Outbox.shut, List.append_nil]
  | cons pdu later =>
    simp only [drain, hqueue, h, finish, Outbox.shut]

variable {s : Service} {session : Session} {phase : Phase}

/-- A service that has ended has no more rounds. -/
theorem round_of_ended {outcome : Except Error Unit} (h : s.outcome = some outcome)
    (branch : Branch) : s.round branch = s ∧ s.isReady branch = false := by
  cases branch with
  | write => exact ⟨by simp only [round, h], by simp [isReady, h]⟩
  | read => exact ⟨by simp only [round, h], by simp [isReady, h]⟩

/-- While some name stands for a context, records can still be queued. -/
theorem hasSender_of_channel? {name : String} {c : ContextId}
    (h : s.machine.registry.channel? name = some c) : s.hasSender = true := by
  unfold Service.hasSender
  cases hconnected : s.machine.registry.connected with
  | nil =>
    rw [Registry.channel?, hconnected] at h
    cases h
  | cons entry entries => simp

/-- An order has the effect of its reaction on the service, and ends it if it is not handled. -/
theorem handle_order (h : s.Serves session phase) (order : ServerOrder) :
    (s.handle order).machine.registry.Serves session (react session phase order).phase ∧
    (s.handle order).aborts = s.aborts ++ (react session phase order).aborts ∧
    (s.handle order).inbox = s.inbox ∧
    (((react session phase order).result = .ok () ∧
        (s.handle order).Serves session (react session phase order).phase ∧
        (s.handle order).written = s.written ∧
        (s.handle order).outbox.queue = s.outbox.queue ++ (react session phase order).pdus) ∨
      ∃ cause, (react session phase order).result = .error cause ∧
        (s.handle order).outcome = some (.error cause) ∧
        (s.handle order).written
          = s.written ++ (s.outbox.queue ++ (react session phase order).pdus) ∧
        (s.handle order).outbox.queue = []) := by
  obtain ⟨⟨registry, activities, next⟩, channel, held, inbox, outbox, failure, written, aborts,
    outcome⟩ := s
  obtain ⟨hregistry, hidle, hchannel, hopen, hfailure, houtcome⟩ := h
  subst hidle hchannel hfailure houtcome
  obtain ⟨r', hserves, hperform⟩ :=
    perform_dispatch next hregistry order hopen aborts
  simp only [handle, perform, hperform]
  cases hresult : (react session phase order).result with
  | ok value =>
    exact ⟨hserves, rfl, rfl, .inl ⟨rfl, ⟨hserves, rfl, rfl, hopen, rfl, rfl⟩, rfl, rfl⟩⟩
  | error cause =>
    simp only [Except.map, Option.getD_some]
    -- No write fails, so the queue is written to its end.
    rw [drain_eq rfl]
    exact ⟨hserves, rfl, rfl, .inr ⟨cause, rfl, rfl, rfl, rfl⟩⟩

end Service

end RemotePrograms
