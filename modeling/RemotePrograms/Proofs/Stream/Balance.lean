import RemotePrograms.Proofs.Stream.Delivery

/-!
# `RemotePrograms.Proofs.Stream.Balance`: where the PDUs are that were queued

Every PDU that was ever put into the queue of a service is in one of three places: it was written,
it is still in the queue, or it is the one whose write failed. `Delivery.Balanced` says so, in the
order of the queue, and it says what the end of a service looks like. Every move keeps it
(`balanced_step`), so it holds of every run. Behind the end nothing changes any more
(`keeps_run`).
-/

set_option autoImplicit false

namespace RemotePrograms

namespace Stage

/-- How the service ended, if it did. -/
def outcome : Stage → Option (Except Error Unit)
  | ended reason => some reason.outcome
  | _ => none

/-- How many PDUs were taken out of the queue and not written. -/
def lost : Stage → Nat
  | ended (.writeFailed _) => 1
  | _ => 0

/-- Nothing is lost while the service has not ended. -/
theorem lost_of_outcome_none {stage : Stage} (h : stage.outcome = none) : stage.lost = 0 := by
  cases stage with
  | ended reason => cases h
  | _ => rfl

/-- Nothing is lost at a clean end. -/
theorem lost_of_isClean {reason : Reason} (h : reason.isClean = true) :
    (Stage.ended reason).lost = 0 := by
  cases reason with
  | writeFailed text => cases h
  | _ => rfl

/-- The return of an activity ends no service. -/
theorem outcome_after (id : ActivityId) (result : Result) (stage : Stage) :
    (stage.after id result).outcome = stage.outcome := by
  by_cases h : stage = .handling id
  · rw [h, after_own]
    cases result with
    | ok value => rfl
    | error cause => rfl
  · rw [after_of_ne h]

end Stage

namespace Delivery

/-- Every PDU that was queued is accounted for, and the end of the service is of one piece: its
outcome, its queue that nobody reads, and nothing left in it if the end is a clean one. -/
structure Balanced (d : Delivery) : Prop where
  outcome_eq : d.service.outcome = d.stage.outcome
  isOpen_eq : d.service.outbox.isOpen = d.stage.outcome.isNone
  exists_lost : ∃ lost : List Bytes,
    d.queued = d.service.written ++ lost ++ d.service.outbox.queue ∧ lost.length = d.stage.lost
  isClean : ∀ reason, d.stage = .emptying reason → reason.isClean = true
  queue_eq : ∀ reason, d.stage = .ended reason → reason.isClean = true →
    d.service.outbox.queue = []

namespace Balanced

variable {d : Delivery}

/-- While no write failed, what was queued is written or still in the queue. -/
theorem queued_eq (h : d.Balanced) (hlost : d.stage.lost = 0) :
    d.queued = d.service.written ++ d.service.outbox.queue := by
  obtain ⟨lost, hqueued, hlength⟩ := h.exists_lost
  obtain rfl := List.eq_nil_of_length_eq_zero (hlength.trans hlost)
  rw [hqueued, List.append_nil]

/-- A clean end leaves nothing behind. -/
theorem written_eq (h : d.Balanced) {reason : Reason} (hstage : d.stage = .ended reason)
    (hclean : reason.isClean = true) : d.service.written = d.queued := by
  have hlost : d.stage.lost = 0 := by rw [hstage, Stage.lost_of_isClean hclean]
  rw [h.queued_eq hlost, h.queue_eq reason hstage hclean, List.append_nil]

/-- A service that has not ended has lost nothing. -/
theorem queued_eq_of_going (h : d.Balanced) (houtcome : d.stage.outcome = none) :
    d.queued = d.service.written ++ [] ++ d.service.outbox.queue := by
  rw [List.append_nil, h.queued_eq (Stage.lost_of_outcome_none houtcome)]

/-- What is written was queued, in the same order. -/
theorem isPrefix (h : d.Balanced) : d.service.written <+: d.queued := by
  obtain ⟨lost, hqueued, -⟩ := h.exists_lost
  exact ⟨lost ++ d.service.outbox.queue, by rw [hqueued, List.append_assoc]⟩

/-- Other parts of the service are no matter of the books. -/
theorem withService (h : d.Balanced) {s : Service} (houtcome : s.outcome = d.service.outcome)
    (houtbox : s.outbox = d.service.outbox) (hwritten : s.written = d.service.written) :
    ({ d with service := s } : Delivery).Balanced where
  outcome_eq := houtcome.trans h.outcome_eq
  isOpen_eq := by rw [houtbox, h.isOpen_eq]
  exists_lost := by rw [houtbox, hwritten]; exact h.exists_lost
  isClean := h.isClean
  queue_eq reason hstage hclean := by rw [houtbox, h.queue_eq reason hstage hclean]

/-- A service that has not ended goes on. -/
theorem withStage (h : d.Balanced) (houtcome : d.stage.outcome = none) (stage : Stage)
    (houtcome' : stage.outcome = none)
    (hclean : ∀ reason, stage = .emptying reason → reason.isClean = true) :
    ({ d with stage } : Delivery).Balanced where
  outcome_eq := by rw [h.outcome_eq, houtcome, houtcome']
  isOpen_eq := by rw [h.isOpen_eq, houtcome, houtcome']
  exists_lost :=
    ⟨[], h.queued_eq_of_going houtcome, (Stage.lost_of_outcome_none houtcome').symm⟩
  isClean := hclean
  queue_eq reason hstage _ := by
    subst hstage
    cases houtcome'

/-- A service ends without a write that failed. -/
theorem finish (h : d.Balanced) (houtcome : d.stage.outcome = none) (reason : Reason)
    (hlost : (Stage.ended reason).lost = 0)
    (hqueue : reason.isClean = true → d.service.outbox.queue = []) :
    ({ d with service := d.service.finish reason.outcome, stage := .ended reason } :
      Delivery).Balanced where
  outcome_eq := rfl
  isOpen_eq := rfl
  exists_lost := ⟨[], h.queued_eq_of_going houtcome, hlost.symm⟩
  isClean _ hstage := by cases hstage
  queue_eq _ hstage hclean := by
    cases hstage
    exact hqueue hclean

/-- What somebody queues is entered, or it is not taken. -/
theorem send (h : d.Balanced) (order : ClientOrder) : (d.send order).2.Balanced := by
  obtain ⟨houtbox, htaken⟩ := d.service.outbox.send_snd order
  have hqueue : (d.send order).2.service.outbox.queue
      = d.service.outbox.queue ++ Outbox.taken order (d.service.outbox.send order).1 :=
    congrArg Outbox.queue houtbox
  refine ⟨h.outcome_eq, (congrArg Outbox.isOpen houtbox).trans h.isOpen_eq, ?_, h.isClean,
    fun reason hstage hclean => ?_⟩
  · obtain ⟨lost, hqueued, hlength⟩ := h.exists_lost
    refine ⟨lost, ?_, hlength⟩
    show d.queued ++ Outbox.taken order (d.service.outbox.send order).1
      = d.service.written ++ lost ++ (d.send order).2.service.outbox.queue
    rw [hqueue, hqueued, List.append_assoc _ d.service.outbox.queue]
  · -- A service that has ended takes nothing more.
    have hstage' : d.stage = .ended reason := hstage
    have hclosed : d.service.outbox.isOpen = false := by
      rw [h.isOpen_eq, hstage']
      rfl
    rw [hqueue, htaken hclosed, List.append_nil, h.queue_eq reason hstage' hclean]

/-- A write keeps the books. A PDU goes from the queue to what is written, or it is lost and the
service ends. -/
theorem write (h : d.Balanced) (houtcome : d.stage.outcome = none) : d.write.Balanced := by
  cases hqueue : d.service.outbox.queue with
  | nil =>
    rw [write_of_nil hqueue]
    split
    · exact h
    · exact h.finish houtcome .abandoned rfl fun _ => hqueue
  | cons pdu later =>
    have hqueued := h.queued_eq_of_going houtcome
    rw [hqueue, List.append_nil] at hqueued
    cases hfailure : d.service.writeFailure with
    | none =>
      rw [write_of_cons hqueue hfailure]
      refine ⟨h.outcome_eq, h.isOpen_eq, ⟨[], ?_, (Stage.lost_of_outcome_none houtcome).symm⟩,
        h.isClean, fun reason hstage _ => ?_⟩
      · show d.queued = d.service.written ++ [pdu] ++ [] ++ later
        rw [hqueued, List.append_nil, List.append_assoc, List.singleton_append]
      · rw [show d.stage = .ended reason from hstage] at houtcome
        cases houtcome
    | some text =>
      -- This PDU is neither written nor in the queue any more.
      rw [write_of_failure hqueue hfailure]
      refine ⟨rfl, rfl, ⟨[pdu], ?_, rfl⟩, fun _ hstage => (nomatch hstage),
        fun _ hstage hclean => ?_⟩
      · show d.queued = d.service.written ++ [pdu] ++ later
        rw [hqueued, List.append_assoc, List.singleton_append]
      · cases hstage
        cases hclean

/-- Emptying the queue keeps the books up to the end. -/
theorem empty (h : d.Balanced) {reason : Reason} (hstage : d.stage = .emptying reason) :
    (d.empty reason).Balanced := by
  have houtcome : d.stage.outcome = none := by rw [hstage]; rfl
  have hclean : reason.isClean = true := h.isClean reason hstage
  cases hqueue : d.service.outbox.queue with
  | nil =>
    rw [empty_of_nil hqueue]
    exact h.finish houtcome reason (Stage.lost_of_isClean hclean) fun _ => hqueue
  | cons pdu later =>
    rw [empty_of_cons hqueue]
    exact h.write houtcome

/-- What is seen of the channels is entered in no book. -/
theorem see (h : d.Balanced) (machine : Machine) (event : Option Event) :
    (d.see (machine, event)).Balanced := by
  obtain ⟨aborts, hsee⟩ := d.exists_see_eq machine event
  have hservice : ({ d with service := { d.service with machine, aborts } } : Delivery).Balanced :=
    h.withService rfl rfl rfl
  rw [hsee]
  split
  · rename_i id result
    by_cases hstage : d.stage = .handling id
    · have houtcome : d.stage.outcome = none := by rw [hstage]; rfl
      refine hservice.withStage houtcome _ ((d.stage.outcome_after id result).trans houtcome) ?_
      intro reason hreason
      rw [hstage, Stage.after_own] at hreason
      cases result with
      | ok value => cases hreason
      | error cause =>
        cases hreason
        rfl
    · rw [Stage.after_of_ne hstage]
      exact hservice
  · exact hservice

/-- A record that is with the transport is entered when it goes into the queue. -/
theorem prepare (h : d.Balanced) (move : RemotePrograms.Move) : (d.prepare move).1.Balanced := by
  obtain hsame | ⟨order, hsend⟩ := d.prepare_cases move
  · rw [hsame]
    exact h
  · rw [hsend]
    exact h.send order

/-- A move on the channels keeps the books. -/
theorem act (h : d.Balanced) (move : RemotePrograms.Move) : (d.act move).Balanced :=
  (h.prepare move).see _ _

/-- Handing an order to the channel keeps the books. -/
theorem handle (h : d.Balanced) (houtcome : d.stage.outcome = none) (order : ServerOrder) :
    (d.handle order).Balanced :=
  (h.withStage houtcome (.handling d.service.machine.next) rfl
    fun _ hstage => (nomatch hstage)).act _

/-- Reading keeps the books. When it ends the service, nothing more is written. -/
theorem read (h : d.Balanced) (houtcome : d.stage.outcome = none) : d.read.Balanced := by
  unfold Delivery.read
  generalize d.service.inbox.poll = polled
  obtain ⟨item, inbox⟩ := polled
  have hinbox : ({ d with service := { d.service with inbox } } : Delivery).Balanced :=
    h.withService rfl rfl rfl
  match item with
  | none => exact hinbox
  | some (.order order) => exact hinbox.handle houtcome order
  | some (.failure cause) =>
    exact hinbox.finish houtcome (.readFailed cause) rfl fun hclean => (nomatch hclean)
  | some .ended =>
    refine hinbox.withStage houtcome _ rfl fun reason hstage => ?_
    cases hstage
    rfl

/-- A round keeps the books. -/
theorem round (h : d.Balanced) (branch : Branch) : (d.round branch).Balanced := by
  unfold Delivery.round
  split
  · exact h
  · exact h
  · rename_i hstage
    exact h.empty hstage
  · rename_i hstage
    exact h.write (by rw [hstage]; rfl)
  · rename_i hstage
    exact h.read (by rw [hstage]; rfl)

end Balanced

/-- Every move keeps the books. -/
theorem balanced_step {d : Delivery} (h : d.Balanced) (move : Move) : (d.step move).Balanced := by
  cases move with
  | round branch => exact h.round branch
  | send order => exact h.send order
  | act move => exact h.act move
  | arrive arrival => exact h.withService rfl rfl rfl
  | failWrites text => exact h.withService rfl rfl rfl
  | release => exact h.withService rfl rfl rfl

/-- The books are kept in every run. -/
theorem balanced_run {d : Delivery} (h : d.Balanced) (moves : List Move) :
    (d.run moves).Balanced :=
  run_induction h fun _ hd move _ => balanced_step hd move

/-- At the start nothing is entered. -/
theorem balanced_new (registry : Registry) (channel : String) (held : Bool) :
    (new registry channel held).Balanced where
  outcome_eq := rfl
  isOpen_eq := rfl
  exists_lost := ⟨[], rfl, rfl⟩
  isClean _ hstage := by cases hstage
  queue_eq _ hstage := by cases hstage

/-! ### After the end -/

/-- The stage, the queue and the books are as they were. -/
structure Keeps (d d' : Delivery) : Prop where
  stage_eq : d'.stage = d.stage
  queue_eq : d'.service.outbox.queue = d.service.outbox.queue
  written_eq : d'.service.written = d.service.written
  queued_eq : d'.queued = d.queued

/-- What does nothing keeps everything. -/
theorem Keeps.refl (d : Delivery) : d.Keeps d := ⟨rfl, rfl, rfl, rfl⟩

/-- What is kept twice is kept. -/
theorem Keeps.trans {d d' d'' : Delivery} (h : d.Keeps d') (h' : d'.Keeps d'') : d.Keeps d'' :=
  ⟨h'.stage_eq.trans h.stage_eq, h'.queue_eq.trans h.queue_eq, h'.written_eq.trans h.written_eq,
    h'.queued_eq.trans h.queued_eq⟩

/-- A queue that nobody reads takes nothing. -/
theorem keeps_send {d : Delivery} (h : d.service.outbox.isOpen = false) (order : ClientOrder) :
    d.Keeps (d.send order).2 := by
  obtain ⟨houtbox, htaken⟩ := d.service.outbox.send_snd order
  refine ⟨rfl, (congrArg Outbox.queue houtbox).trans ?_, rfl, ?_⟩
  · rw [htaken h, List.append_nil]
  · show d.queued ++ Outbox.taken order (d.service.outbox.send order).1 = d.queued
    rw [htaken h, List.append_nil]

/-- A record that is with the transport comes too late for a queue that nobody reads. -/
theorem keeps_prepare {d : Delivery} (h : d.service.outbox.isOpen = false)
    (move : RemotePrograms.Move) : d.Keeps (d.prepare move).1 := by
  obtain hsame | ⟨order, hsend⟩ := d.prepare_cases move
  · rw [hsame]
    exact .refl d
  · rw [hsend]
    exact keeps_send h order

/-- The return of an activity does not bring back a service that has ended. -/
theorem keeps_see {d : Delivery} {reason : Reason} (hstage : d.stage = .ended reason)
    (machine : Machine) (event : Option Event) : d.Keeps (d.see (machine, event)) := by
  obtain ⟨aborts, hsee⟩ := d.exists_see_eq machine event
  rw [hsee]
  refine ⟨?_, rfl, rfl, rfl⟩
  dsimp only
  split
  · refine Stage.after_of_ne ?_ _
    rw [hstage]
    exact Stage.noConfusion
  · rfl

/-- No move changes what a service that has ended has queued and written. -/
theorem keeps_step {d : Delivery} (h : d.Balanced) {reason : Reason}
    (hstage : d.stage = .ended reason) (move : Move) : d.Keeps (d.step move) := by
  have hclosed : d.service.outbox.isOpen = false := by
    rw [h.isOpen_eq, hstage]
    rfl
  cases move with
  | round branch =>
    show d.Keeps (d.round branch)
    simp only [round, hstage]
    exact .refl d
  | send order => exact keeps_send hclosed order
  | act move =>
    have hprepare := keeps_prepare hclosed move
    exact hprepare.trans (keeps_see (hprepare.stage_eq.trans hstage) _ _)
  | arrive arrival | failWrites text | release => exact ⟨rfl, rfl, rfl, rfl⟩

/-- A service that has ended writes nothing more. -/
theorem keeps_run {d : Delivery} (h : d.Balanced) {reason : Reason}
    (hstage : d.stage = .ended reason) (moves : List Move) : d.Keeps (d.run moves) :=
  (run_induction (P := fun later => later.Balanced ∧ d.Keeps later) ⟨h, .refl d⟩
    fun _ ⟨hlater, hkeeps⟩ move _ => ⟨balanced_step hlater move,
      hkeeps.trans (keeps_step hlater (hkeeps.stage_eq.trans hstage) move)⟩).2

/-- A service that is coming to its end gets there in a round for each PDU and one more. -/
theorem exists_ended_of_rounds {d : Delivery} (h : d.Balanced) {reason : Reason}
    (hstage : d.stage = .emptying reason) (branches : List Branch)
    (hlength : d.service.outbox.queue.length < branches.length) :
    ∃ last, (d.run (branches.map .round)).stage = .ended last := by
  induction branches generalizing d with
  | nil => exact absurd hlength (Nat.not_lt_zero _)
  | cons branch branches ih =>
    have hround : d.step (.round branch) = d.empty reason := round_of_emptying hstage branch
    have hbalanced : (d.empty reason).Balanced := hround ▸ balanced_step h (.round branch)
    show ∃ last, ((d.step (.round branch)).run (branches.map .round)).stage = .ended last
    rw [hround]
    cases hqueue : d.service.outbox.queue with
    | nil =>
      have hended : (d.empty reason).stage = .ended reason := by rw [empty_of_nil hqueue]
      exact ⟨reason, (keeps_run hbalanced hended _).stage_eq.trans hended⟩
    | cons pdu later =>
      rw [empty_of_cons hqueue] at hbalanced ⊢
      cases hfailure : d.service.writeFailure with
      | none =>
        rw [hqueue, List.length_cons, List.length_cons] at hlength
        -- The queue has become shorter by the PDU that was written.
        refine ih hbalanced ?_ ?_
        · rw [write_of_cons hqueue hfailure]
          exact hstage
        · rw [write_of_cons hqueue hfailure]
          exact Nat.lt_of_succ_lt_succ hlength
      | some text =>
        have hended : d.write.stage = .ended (.writeFailed text) := by
          rw [write_of_failure hqueue hfailure]
        exact ⟨_, (keeps_run hbalanced hended _).stage_eq.trans hended⟩

end Delivery

end RemotePrograms
