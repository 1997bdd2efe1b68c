import Mathlib.Data.List.Induction
import RemotePrograms.Proofs.Stream.Delivery

/-!
# `RemotePrograms.Proofs.Stream.Endings`: why a service ends

Why a service ends is settled by one move. `Delivery.Settles` says which moves those are, and for
what reason: `reason?_step` is the one inversion of a move that the rest goes by. Later moves do
not change the reason, except that a write may still fail (`endsAs_run`), and no reason comes out
of nothing (`exists_settles`). `settles_noChannel` is about one reason, a channel that is not there.
-/

set_option autoImplicit false

namespace RemotePrograms

/-- Why the service ends, if it is going to end or has. -/
def Stage.reason? : Stage → Option Reason
  | .emptying reason | .ended reason => some reason
  | .serving | .handling _ => none

/-- A service with a reason to end empties its queue for it or has ended for it. -/
theorem Stage.of_reason? {stage : Stage} {reason : Reason} (h : stage.reason? = some reason) :
    stage = .emptying reason ∨ stage = .ended reason := by
  cases stage with
  | serving | handling id => cases h
  | emptying reason =>
    cases h
    exact .inl rfl
  | ended reason =>
    cases h
    exact .inr rfl

namespace Delivery

/-- Whether a round of this branch writes. -/
def writes (d : Delivery) (branch : Branch) : Bool :=
  match d.stage, branch with
  | .serving, .write | .emptying _, _ => true
  | _, _ => false

/-- What the outside sees of a move on the channels. -/
def event? (d : Delivery) (move : RemotePrograms.Move) : Option Event :=
  ((d.prepare move).1.service.machine.step (d.prepare move).2).2

/-- With this move the channels are done with the order that the service handed to them. -/
inductive Returns (d : Delivery) : Move → Result → Prop where
  /-- The order takes one stretch. -/
  | atOnce {order : ServerOrder} {result : Result} : d.stage = .serving →
      d.service.inbox.poll.1 = some (.order order) →
      (d.service.machine.step (.call (.dispatch d.service.channel order))).2
        = some (.returned d.service.machine.next result) →
      Returns d (.round .read) result
  | later {id : ActivityId} {move : RemotePrograms.Move} {result : Result} :
      d.stage = .handling id → d.event? move = some (.returned id result) →
      Returns d (.act move) result

/-- This move settles why the service ends. -/
inductive Settles (d : Delivery) : Move → Reason → Prop where
  | abandoned : d.stage = .serving → d.service.outbox.queue = [] → d.service.hasSender = false →
      Settles d (.round .write) .abandoned
  | streamEnded : d.stage = .serving → d.service.inbox.poll.1 = some .ended →
      Settles d (.round .read) .streamEnded
  | unhandled {move : Move} {cause : Error} : d.Returns move (.error cause) →
      Settles d move (.unhandled cause)
  | readFailed {cause : Error} : d.stage = .serving →
      d.service.inbox.poll.1 = some (.failure cause) →
      Settles d (.round .read) (.readFailed cause)
  | writeFailed {branch : Branch} {pdu : Bytes} {later : List Bytes} {text : String} :
      d.writes branch = true → d.service.outbox.queue = pdu :: later →
      d.service.writeFailure = some text → Settles d (.round branch) (.writeFailed text)

/-- To queue a record is no step of the service. -/
theorem stage_prepare (d : Delivery) (move : RemotePrograms.Move) :
    (d.prepare move).1.stage = d.stage := by
  obtain hsame | ⟨order, hsend⟩ := d.prepare_cases move
  · rw [hsame]
  · rw [hsend]
    rfl

/-- Only the return of its order moves a service on. -/
theorem stage_act (d : Delivery) (move : RemotePrograms.Move) :
    (d.act move).stage
      = match d.event? move with
        | some (.returned id result) => d.stage.after id result
        | _ => d.stage := by
  obtain ⟨aborts, hsee⟩ := (d.prepare move).1.exists_see_eq
    ((d.prepare move).1.service.machine.step (d.prepare move).2).1 (d.event? move)
  have hact := congrArg stage hsee
  rw [stage_prepare] at hact
  exact hact

/-- What a write does to the reason to end. -/
theorem reason?_write {d : Delivery} {branch : Branch} (hwrites : d.writes branch = true)
    (hnil : d.service.outbox.queue = [] → d.stage = .serving ∧ branch = .write) :
    (∃ reason, d.Settles (.round branch) reason ∧ d.write.stage.reason? = some reason) ∨
      d.write.stage.reason? = d.stage.reason? := by
  cases hqueue : d.service.outbox.queue with
  | nil =>
    obtain ⟨hstage, rfl⟩ := hnil hqueue
    rw [write_of_nil hqueue]
    cases hsender : d.service.hasSender with
    | true => exact .inr rfl
    | false => exact .inl ⟨.abandoned, .abandoned hstage hqueue hsender, rfl⟩
  | cons pdu later =>
    cases hfailure : d.service.writeFailure with
    | none =>
      rw [write_of_cons hqueue hfailure]
      exact .inr rfl
    | some text =>
      rw [write_of_failure hqueue hfailure]
      exact .inl ⟨.writeFailed text, .writeFailed hwrites hqueue hfailure, rfl⟩

/-- The return of its order gives the service a reason to end only if it is a failure. -/
theorem reason?_after_own (id : ActivityId) (result : Result) :
    (Stage.after id result (.handling id)).reason?
      = match result with
        | .ok _ => none
        | .error cause => some (.unhandled cause) := by
  rw [Stage.after_own]
  cases result with
  | ok value => rfl
  | error cause => rfl

/-- The stage after a read goes by what is read, and by whether an order is returned at once. -/
theorem stage_read (d : Delivery) :
    d.read.stage
      = match d.service.inbox.poll.1 with
        | none => d.stage
        | some (.order order) =>
          match (d.service.machine.step (.call (.dispatch d.service.channel order))).2 with
          | some (.returned id result) => Stage.after id result (.handling d.service.machine.next)
          | _ => .handling d.service.machine.next
        | some (.failure cause) => .ended (.readFailed cause)
        | some .ended => .emptying .streamEnded := by
  unfold read
  generalize d.service.inbox.poll = polled
  obtain ⟨item, inbox⟩ := polled
  match item with
  | none | some (.failure _) | some .ended => rfl
  | some (.order order) =>
    exact stage_act { d with
      service := { d.service with inbox }, stage := .handling d.service.machine.next } _

/-- What a read does to the reason to end. -/
theorem reason?_read {d : Delivery} (hstage : d.stage = .serving) :
    (∃ reason, d.Settles (.round .read) reason ∧ d.read.stage.reason? = some reason) ∨
      d.read.stage.reason? = d.stage.reason? := by
  rw [stage_read, hstage]
  split
  · exact .inr rfl
  · rename_i order hpoll
    split
    · rename_i id result hreturned
      obtain ⟨rfl, -⟩ := Progress.of_event?_returned
        ((Machine.event_step_call _ _).symm.trans hreturned)
      rw [show d.service.machine.next = d.service.machine.nextActivity from rfl,
        reason?_after_own]
      cases result with
      | ok value => exact .inr rfl
      | error cause => exact .inl ⟨_, .unhandled (.atOnce hstage hpoll hreturned), rfl⟩
    · exact .inr rfl
  · rename_i cause hpoll
    exact .inl ⟨_, .readFailed hstage hpoll, rfl⟩
  · rename_i hpoll
    exact .inl ⟨_, .streamEnded hstage hpoll, rfl⟩

/-- A move settles why the service ends, or it leaves the reason as it was. -/
theorem reason?_step (d : Delivery) (move : Move) :
    (∃ reason, d.Settles move reason ∧ (d.step move).stage.reason? = some reason) ∨
      (d.step move).stage.reason? = d.stage.reason? := by
  cases move with
  | arrive arrival | failWrites text | release | send order => exact .inr rfl
  | act move =>
    show (∃ reason, _ ∧ (d.act move).stage.reason? = _) ∨ (d.act move).stage.reason? = _
    rw [stage_act]
    split
    · rename_i id result hreturned
      -- Only the order that the service itself handed over can give it a reason.
      by_cases hstage : d.stage = .handling id
      · rw [hstage, reason?_after_own]
        cases result with
        | ok value => exact .inr rfl
        | error cause => exact .inl ⟨_, .unhandled (.later hstage hreturned), rfl⟩
      · rw [Stage.after_of_ne hstage]
        exact .inr rfl
    · exact .inr rfl
  | round branch =>
    show (∃ reason, _ ∧ (d.round branch).stage.reason? = _) ∨ (d.round branch).stage.reason? = _
    cases hstage : d.stage with
    | ended reason | handling id =>
      refine .inr ?_
      simp only [round, hstage]
    -- The reason is there already, and only a write that fails can replace it.
    | emptying reason =>
      rw [round_of_emptying hstage]
      cases hqueue : d.service.outbox.queue with
      | nil =>
        rw [empty_of_nil hqueue]
        exact .inr rfl
      | cons pdu later =>
        rw [empty_of_cons hqueue, ← hstage]
        exact reason?_write (by simp only [writes, hstage]) fun hnil => by
          rw [hqueue] at hnil
          cases hnil
    | serving =>
      cases branch with
      | write =>
        simp only [round, hstage]
        rw [← hstage]
        exact reason?_write (by simp only [writes, hstage]) fun _ => ⟨hstage, rfl⟩
      | read =>
        simp only [round, hstage]
        rw [← hstage]
        exact reason?_read hstage

/-- A round that writes takes the first PDU of the queue. -/
theorem round_of_writes {d : Delivery} {branch : Branch} {pdu : Bytes} {later : List Bytes}
    (h : d.writes branch = true) (hqueue : d.service.outbox.queue = pdu :: later) :
    d.round branch = d.write := by
  unfold writes at h
  split at h
  · rename_i hstage
    simp only [round, hstage]
  · rename_i reason _ hstage
    rw [round_of_emptying hstage, empty_of_cons hqueue]
  · cases h

/-- A move that settles the reason gives it to the service. -/
theorem Settles.reason?_step {d : Delivery} {move : Move} {reason : Reason}
    (h : d.Settles move reason) : (d.step move).stage.reason? = some reason := by
  cases h with
  | abandoned hstage hqueue hsender =>
    simp only [step, round, hstage, write_of_nil hqueue, hsender, Bool.false_eq_true, if_false]
    rfl
  | streamEnded hstage hpoll | readFailed hstage hpoll =>
    simp only [step, round, hstage, stage_read, hpoll]
    rfl
  | unhandled hreturns =>
    cases hreturns with
    | atOnce hstage hpoll hreturned =>
      simp only [step, round, hstage, stage_read, hpoll, hreturned, reason?_after_own]
    | later hstage hreturned =>
      simp only [step, stage_act, hstage, hreturned, reason?_after_own]
  | writeFailed hwrites hqueue hfailure =>
    simp only [step, round_of_writes hwrites hqueue, write_of_failure hqueue hfailure]
    rfl

/-- While a service is coming to its end, only a write that fails can settle anything. -/
theorem Settles.reason?_eq_none {d : Delivery} {move : Move} {reason : Reason}
    (h : d.Settles move reason) :
    d.stage.reason? = none ∨ ∃ text, reason = .writeFailed text := by
  cases h with
  | abandoned hstage | streamEnded hstage | readFailed hstage =>
    rw [hstage]
    exact .inl rfl
  | unhandled hreturns =>
    cases hreturns with
    | atOnce hstage | later hstage =>
      rw [hstage]
      exact .inl rfl
  | writeFailed => exact .inr ⟨_, rfl⟩

/-- The service is going to end for this reason, or it has, or a write failed before it could. -/
def EndsAs (d : Delivery) (reason : Reason) : Prop :=
  d.stage.reason? = some reason ∨ ∃ text, d.stage.reason? = some (.writeFailed text)

/-- A reason to end stays, or a write fails. -/
theorem endsAs_step {d : Delivery} {reason : Reason} (h : d.EndsAs reason) (move : Move) :
    (d.step move).EndsAs reason := by
  obtain ⟨other, hsettles, hother⟩ | hsame := d.reason?_step move
  · obtain hnone | ⟨text, rfl⟩ := hsettles.reason?_eq_none
    · obtain hreason | ⟨text, hreason⟩ := h
      · rw [hnone] at hreason
        cases hreason
      · rw [hnone] at hreason
        cases hreason
    · exact .inr ⟨text, hother⟩
  · unfold EndsAs
    rw [hsame]
    exact h

/-- A reason to end stays to the end of a run, or a write fails. -/
theorem endsAs_run {d : Delivery} {reason : Reason} (h : d.EndsAs reason) (moves : List Move) :
    (d.run moves).EndsAs reason :=
  run_induction (P := fun d => d.EndsAs reason) h fun _ hd move _ => endsAs_step hd move

/-- A service that comes to its end does so because of one of the moves before. -/
theorem exists_settles {d : Delivery} (hnone : d.stage.reason? = none) (moves : List Move)
    {reason : Reason} (h : (d.run moves).stage.reason? = some reason) :
    ∃ before move after, moves = before ++ move :: after ∧
      (d.run before).Settles move reason := by
  induction moves using List.reverseRecOn with
  | nil =>
    rw [show (d.run []).stage.reason? = none from hnone] at h
    cases h
  | append_singleton moves move ih =>
    rw [run_append] at h
    obtain ⟨other, hsettles, hother⟩ | hsame := (d.run moves).reason?_step move
    · obtain rfl : other = reason := Option.some.inj (hother.symm.trans h)
      exact ⟨moves, move, [], rfl, hsettles⟩
    · -- The reason was settled earlier.
      obtain ⟨before, earlier, after, rfl, hsettles⟩ := ih (hsame.symm.trans h)
      exact ⟨before, earlier, after ++ [move], by rw [List.append_assoc]; rfl, hsettles⟩

/-! ### A channel that is not there -/

/-- No move on the channels changes which one is served. -/
theorem channel_act (d : Delivery) (move : RemotePrograms.Move) :
    (d.act move).service.channel = d.service.channel := by
  have hprepare : (d.prepare move).1.service.channel = d.service.channel := by
    obtain hsame | ⟨order, hsend⟩ := d.prepare_cases move
    · rw [hsame]
    · rw [hsend]
      rfl
  obtain ⟨aborts, hsee⟩ := (d.prepare move).1.exists_see_eq
    ((d.prepare move).1.service.machine.step (d.prepare move).2).1 (d.event? move)
  have hact := congrArg (fun d : Delivery => d.service.channel) hsee
  exact hact.trans hprepare

/-- No write changes which channel is served. -/
theorem channel_write (d : Delivery) : d.write.service.channel = d.service.channel := by
  show d.service.write.channel = d.service.channel
  unfold Service.write
  split
  · split
    · rfl
    · rfl
  · rfl
  · rfl

/-- No read changes which channel is served. -/
theorem channel_read (d : Delivery) : d.read.service.channel = d.service.channel := by
  unfold read
  split
  · rfl
  · exact channel_act _ _
  · rfl
  · rfl

/-- A service serves the same channel all the time. -/
theorem channel_step (d : Delivery) (move : Move) :
    (d.step move).service.channel = d.service.channel := by
  cases move with
  | arrive arrival | failWrites text | release | send order => rfl
  | act move => exact d.channel_act move
  | round branch =>
    show (d.round branch).service.channel = d.service.channel
    unfold round
    split
    · rfl
    · rfl
    · unfold empty
      split
      · rfl
      · exact d.channel_write
    · exact d.channel_write
    · exact d.channel_read

/-- A service serves the same channel in every run. -/
theorem channel_run (d : Delivery) (moves : List Move) :
    (d.run moves).service.channel = d.service.channel :=
  run_induction (P := fun later => later.service.channel = d.service.channel) rfl
    fun later hlater move _ => (later.channel_step move).trans hlater

/-- An order for a channel that is not there cannot be handled. -/
theorem settles_noChannel {d : Delivery} {order : ServerOrder} (hstage : d.stage = .serving)
    (hpoll : d.service.inbox.poll.1 = some (.order order))
    (hchannel : d.service.machine.registry.channel? d.service.channel = none) :
    d.Settles (.round .read) (.unhandled (.noChannel d.service.channel)) := by
  refine .unhandled (.atOnce hstage hpoll ?_)
  rw [Machine.event_step_call, Operation.start, hchannel]
  rfl

end Delivery

end RemotePrograms
