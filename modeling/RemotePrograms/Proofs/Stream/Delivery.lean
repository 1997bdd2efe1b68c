import RemotePrograms.Proofs.Channel.Stretches
import RemotePrograms.Proofs.Stream.Serving

/-!
# `RemotePrograms.Proofs.Stream.Delivery`: a service seen stretch by stretch

A `Service` runs an operation on its channels from beginning to end with nobody else about, and
when it comes to its own end it empties its queue in one go. A `Delivery` is the same service at a
finer grain. Operations are those of a `Machine`, so while an order is handled its callbacks, and
anybody else, may queue records and act on the channels. Emptying the queue takes a round for each
PDU, and in the middle of it something may be queued and a write may fail.

Two things are kept beside the service: its `Stage`, and a record of the PDUs that were put into
the queue, which is made when they are put in.

`exists_run_service` ties the two together. Every run of a service is a run of a delivery in which
nobody comes between.
-/

set_option autoImplicit false

namespace RemotePrograms

/-- Why a service ends. -/
inductive Reason where
  /-- Nobody can queue anything any more. -/
  | abandoned
  /-- The stream ended between two orders. -/
  | streamEnded
  /-- An order could not be handled. -/
  | unhandled (cause : Error)
  | readFailed (cause : Error)
  | writeFailed (text : String)
  deriving DecidableEq, Repr

namespace Reason

/-- The outcome of a service that ends for this reason. -/
def outcome : Reason → Except Error Unit
  | abandoned | streamEnded => .ok ()
  | unhandled cause | readFailed cause => .error cause
  | writeFailed text => .error (.streamFailed text)

/-- Whether a service that ends for this reason is to have nothing left in its queue. -/
def isClean : Reason → Bool
  | abandoned | streamEnded | unhandled _ => true
  | readFailed _ | writeFailed _ => false

end Reason

/-- How far a service has come. -/
inductive Stage where
  | serving
  /-- The channels have an order, as this activity. -/
  | handling (id : ActivityId)
  /-- The service is going to end, but what is queued is written first. -/
  | emptying (reason : Reason)
  | ended (reason : Reason)
  deriving DecidableEq, Repr

/-- The stage when an activity has returned. A service goes by the one that has its order. -/
def Stage.after (id : ActivityId) (result : Result) : Stage → Stage
  | .handling own =>
    if own = id then
      match result with
      | .ok _ => .serving
      | .error cause => .emptying (.unhandled cause)
    else .handling own
  | stage => stage

/-- The service goes on when its order was handled, and empties its queue when it was not. -/
theorem Stage.after_own (id : ActivityId) (result : Result) :
    Stage.after id result (.handling id)
      = match result with
        | .ok _ => .serving
        | .error cause => .emptying (.unhandled cause) :=
  if_pos rfl

/-- Other returns are of no account. -/
theorem Stage.after_of_ne {id : ActivityId} {stage : Stage} (h : stage ≠ .handling id)
    (result : Result) : stage.after id result = stage := by
  cases stage with
  | handling own =>
    have hne : own ≠ id := fun heq => h (congrArg Stage.handling heq)
    exact if_neg hne
  | serving | emptying reason | ended reason => rfl

/-- A service at a finer grain. -/
structure Delivery where
  service : Service
  stage : Stage := .serving
  /-- Every PDU that was put into the queue, in order. -/
  queued : List Bytes := []

namespace Delivery

/-- What can happen to a delivery. -/
inductive Move where
  /-- The service has a round. -/
  | round (branch : Branch)
  /-- Something arrives on the stream. -/
  | arrive (arrival : Arrival)
  /-- Writes to the stream begin to fail. -/
  | failWrites (text : String)
  /-- Somebody queues an order. -/
  | send (order : ClientOrder)
  /-- The way to queue records that was kept beside the channels is given up. -/
  | release
  /-- Somebody acts on the channels, or an activity on them goes on. -/
  | act (move : RemotePrograms.Move)

/-- A service that has just begun on these channels. -/
def new (registry : Registry) (channel : String) (held : Bool) : Delivery where
  service := { machine := .ofRegistry registry, channel, held }

/-- Queues an order. -/
def send (order : ClientOrder) (d : Delivery) : Except Error Unit × Delivery :=
  let (answer, outbox) := d.service.outbox.send order
  (answer, { d with
    service := { d.service with outbox }
    queued := d.queued ++ Outbox.taken order answer })

/-- What goes before a move on the channels. A record that is with the transport goes into the
queue, and the transport replies what the queue answers. -/
def prepare (d : Delivery) : RemotePrograms.Move → Delivery × RemotePrograms.Move
  | .answer id reply =>
    match d.service.machine.activity? id with
    | some (.sending _ order _) =>
      let (answer, d) := d.send order
      (d, .answer id answer)
    | _ => (d, .answer id reply)
  | move => (d, move)

/-- The delivery when its channels have come this far. The end of a session is noted, and so is
the return of an order. -/
def see (d : Delivery) : Machine × Option Event → Delivery
  | (machine, some (.contact _ (.abort session reason message))) =>
    { d with service := { d.service with
        machine, aborts := d.service.aborts ++ [⟨session, reason, message⟩] } }
  | (machine, some (.returned id result)) =>
    { d with service := { d.service with machine }, stage := d.stage.after id result }
  | (machine, _) => { d with service := { d.service with machine } }

/-- A move on the channels. -/
def act (d : Delivery) (move : RemotePrograms.Move) : Delivery :=
  let (d, move) := d.prepare move
  d.see (d.service.machine.step move)

/-- Writes one PDU, or ends the service if there will never be one again. -/
def write (d : Delivery) : Delivery where
  service := d.service.write
  stage := match d.service.outbox.queue, d.service.writeFailure with
    | [], _ => if d.service.hasSender then d.stage else .ended .abandoned
    | _ :: _, some text => .ended (.writeFailed text)
    | _ :: _, none => d.stage
  queued := d.queued

/-- Writes one PDU, or ends the service if none is left. -/
def empty (reason : Reason) (d : Delivery) : Delivery :=
  if d.service.outbox.queue.isEmpty then
    { d with service := d.service.finish reason.outcome, stage := .ended reason }
  else d.write

/-- Hands an order to the channel. -/
def handle (order : ServerOrder) (d : Delivery) : Delivery :=
  { d with stage := .handling d.service.machine.next }.act
    (.call (.dispatch d.service.channel order))

/-- Takes up one item of the stream, if one can be read. -/
def read (d : Delivery) : Delivery :=
  match d.service.inbox.poll with
  | (none, inbox) => { d with service := { d.service with inbox } }
  | (some (.order order), inbox) => { d with service := { d.service with inbox } }.handle order
  | (some (.failure cause), inbox) =>
    { d with
      service := { d.service with inbox }.finish (.error cause)
      stage := .ended (.readFailed cause) }
  | (some .ended, inbox) =>
    { d with service := { d.service with inbox }, stage := .emptying .streamEnded }

/-- One round. While the channels have an order the service waits, and while the queue is being
emptied there is nothing to choose. -/
def round (branch : Branch) (d : Delivery) : Delivery :=
  match d.stage, branch with
  | .ended _, _ | .handling _, _ => d
  | .emptying reason, _ => d.empty reason
  | .serving, .write => d.write
  | .serving, .read => d.read

/-- One move. -/
def step (d : Delivery) : Move → Delivery
  | .round branch => d.round branch
  | .arrive arrival =>
    { d with service := { d.service with inbox := d.service.inbox.arrive arrival } }
  | .failWrites text => { d with service := { d.service with writeFailure := some text } }
  | .send order => (d.send order).2
  | .release => { d with service := { d.service with held := false } }
  | .act move => d.act move

/-- A run: the moves one after another. -/
def run (d : Delivery) (moves : List Move) : Delivery :=
  moves.foldl step d

/-- What every move of a run keeps, the run keeps. -/
theorem run_induction {P : Delivery → Prop} {d : Delivery} {moves : List Move} (h : P d)
    (hstep : ∀ d, P d → ∀ move ∈ moves, P (d.step move)) : P (d.run moves) :=
  List.foldlRecOn moves step h hstep

/-- A run goes on where its first part stopped. -/
theorem run_append (d : Delivery) (moves later : List Move) :
    d.run (moves ++ later) = (d.run moves).run later :=
  List.foldl_append

/-! ### What a move does -/

/-- Before a move on the channels at most a record is queued. -/
theorem prepare_cases (d : Delivery) (move : RemotePrograms.Move) :
    (d.prepare move).1 = d ∨ ∃ order, (d.prepare move).1 = (d.send order).2 := by
  unfold prepare
  split
  · split
    · exact .inr ⟨_, rfl⟩
    · exact .inl rfl
  · exact .inl rfl

/-- A move on the channels changes the machine, the ends of sessions that were noted, and, when an
activity has returned, the stage. -/
theorem exists_see_eq (d : Delivery) (machine : Machine) (event : Option Event) :
    ∃ aborts, d.see (machine, event)
      = { d with
          service := { d.service with machine, aborts }
          stage := match event with
            | some (.returned id result) => d.stage.after id result
            | _ => d.stage } := by
  match event with
  | some (.contact _ (.abort _ _ _)) => exact ⟨_, rfl⟩
  | none | some (.returned _ _) | some (.contact _ (.send _ _ _))
  | some (.contact _ (.callback _ _ _)) | some (.contact _ (.notify _ _))
  | some (.contact _ (.locked _)) => exact ⟨d.service.aborts, rfl⟩

/-- A PDU is written whole and leaves the queue. -/
theorem write_of_cons {d : Delivery} {pdu : Bytes} {later : List Bytes}
    (h : d.service.outbox.queue = pdu :: later) (hfailure : d.service.writeFailure = none) :
    d.write = { d with service := { d.service with
      outbox := { d.service.outbox with queue := later }
      written := d.service.written ++ [pdu] } } := by
  simp only [write, Service.write, h, hfailure]

/-- A write that fails ends the service. -/
theorem write_of_failure {d : Delivery} {pdu : Bytes} {later : List Bytes} {text : String}
    (h : d.service.outbox.queue = pdu :: later) (hfailure : d.service.writeFailure = some text) :
    d.write = { d with
      service := { d.service with outbox := { d.service.outbox with queue := later } }.finish
        (.error (.streamFailed text))
      stage := .ended (.writeFailed text) } := by
  simp only [write, Service.write, h, hfailure]

/-- With an empty queue the service waits, or it ends when nobody can fill the queue. -/
theorem write_of_nil {d : Delivery} (h : d.service.outbox.queue = []) :
    d.write = if d.service.hasSender then d
      else { d with service := d.service.finish (.ok ()), stage := .ended .abandoned } := by
  simp only [write, Service.write, h]
  split
  · rfl
  · rfl

/-- The service ends when its queue is empty. -/
theorem empty_of_nil {d : Delivery} (h : d.service.outbox.queue = []) (reason : Reason) :
    d.empty reason
      = { d with service := d.service.finish reason.outcome, stage := .ended reason } := by
  simp only [empty, h, List.isEmpty_nil, if_true]

/-- Emptying a queue is writing what is in it. -/
theorem empty_of_cons {d : Delivery} {pdu : Bytes} {later : List Bytes}
    (h : d.service.outbox.queue = pdu :: later) (reason : Reason) : d.empty reason = d.write := by
  simp only [empty, h, List.isEmpty_cons, Bool.false_eq_true, if_false]

/-- While the queue is being emptied, every round does that. -/
theorem round_of_emptying {d : Delivery} {reason : Reason} (h : d.stage = .emptying reason)
    (branch : Branch) : d.round branch = d.empty reason := by
  simp only [round, h]

/-! ### The service in it -/

/-- What an activity asks of the outside is done, and the outside gives the answer of a service. -/
theorem exists_act_answer (d : Delivery) {id : ActivityId} {m : Machine} {contact : Contact}
    {activity : Activity} (hactivity : m.activity? id = some activity)
    (hrecord : activity.record? = contact.record?) :
    ∃ answer outbox aborts queued,
      Service.reply contact (d.service.outbox, d.service.aborts) = (answer, (outbox, aborts)) ∧
      (d.see (m, some (.contact id contact))).act (.answer id answer)
        = ({ d with
              service := { d.service with machine := m, outbox, aborts }, queued } : Delivery).see
            (m.step (.answer id answer)) := by
  cases contact with
  | send context transport order =>
    -- A record is entered in the books when the transport replies.
    obtain ⟨o, left, rfl⟩ : ∃ o left, activity = .sending o order left := by
      cases activity with
      | sending o order' left =>
        cases hrecord
        exact ⟨o, left, rfl⟩
      | _ => cases hrecord
    refine ⟨(d.service.outbox.send order).1, (d.service.outbox.send order).2, d.service.aborts,
      d.queued ++ Outbox.taken order (d.service.outbox.send order).1, rfl, ?_⟩
    simp only [act, see, prepare, hactivity, send]
  | abort session reason message =>
    refine ⟨.ok (), d.service.outbox, d.service.aborts ++ [⟨session, reason, message⟩], d.queued,
      rfl, ?_⟩
    cases activity with
    | sending => cases hrecord
    | _ => simp only [act, see, prepare, hactivity]
  | callback | notify | locked =>
    refine ⟨.ok (), d.service.outbox, d.service.aborts, d.queued, rfl, ?_⟩
    cases activity with
    | sending => cases hrecord
    | _ => simp only [act, see, prepare, hactivity]

/-- With nobody else about, an activity goes on move by move until it has returned. -/
theorem exists_run_attend (d : Delivery) {id : ActivityId} {n : Nat} {m : Machine} (r : Registry)
    {progress : Progress} (halone : (m.drop id).activities = []) (hsuits : progress.Suits)
    (hleft : progress.left ≤ n) :
    ∃ m' outbox aborts result moves,
      Machine.attend Service.reply id n (m.enter id (r, progress)).1 (m.enter id (r, progress)).2
          (d.service.outbox, d.service.aborts)
        = (m', (outbox, aborts), some result) ∧
      m'.activities = [] ∧
      ((d.see (m.enter id (r, progress))).run moves).service
        = { d.service with machine := m', outbox, aborts } ∧
      ((d.see (m.enter id (r, progress))).run moves).stage = d.stage.after id result := by
  -- The induction is on the stretches that are left. The activity is alone, so every lock is free.
  induction n generalizing d m r progress with
  | zero =>
    cases progress with
    | returned result => exact ⟨_, _, _, result, [], rfl, halone, rfl, rfl⟩
    | continues activity => exact absurd hleft (Nat.not_le.mpr activity.stretches_pos)
    | waits contact activity => exact absurd hleft (Nat.not_le.mpr activity.stretches_pos)
  | succ n ih =>
    cases progress with
    | returned result => exact ⟨_, _, _, result, [], rfl, halone, rfl, rfl⟩
    | continues activity =>
      let entered := m.enter id (r, .continues activity)
      have hactivities : entered.1.activities = [(id, activity)] :=
        Machine.activities_enter r halone rfl
      have hresume : entered.1.step (.resume id) = entered.1.enter id
          (activity.resume (fun session => !entered.1.holds session) entered.1.registry) :=
        Machine.step_resume (Machine.activity?_of_alone hactivities) hsuits
      have hfree : ∀ session, (!entered.1.holds session) = true := fun session => by
        rw [Machine.holds_of_alone hactivities hsuits session]
        rfl
      obtain ⟨hsuits', hless⟩ := Activity.left_of_continues
        (Activity.continues_resume entered.1.registry _ hsuits) hfree
      obtain ⟨m', outbox, aborts, result, moves, hattend, hidle, hservice, hstage⟩ :=
        ih { d with service := { d.service with machine := entered.1 } } _
          (Machine.drop_of_alone hactivities) hsuits'
          (Nat.le_of_lt_succ (Nat.lt_of_lt_of_le hless hleft))
      rw [← hresume] at hattend hservice hstage
      exact ⟨m', outbox, aborts, result, .act (.resume id) :: moves, hattend, hidle, hservice,
        hstage⟩
    | waits contact activity =>
      let entered := m.enter id (r, .waits contact activity)
      have hactivities : entered.1.activities = [(id, activity)] :=
        Machine.activities_enter r halone rfl
      have hactivity : entered.1.activity? id = some activity :=
        Machine.activity?_of_alone hactivities
      -- The outside does what it was asked for, and the books show it.
      obtain ⟨answer, outbox', aborts', queued, hreply, hact⟩ :=
        exists_act_answer d hactivity hsuits.2
      have hanswer : entered.1.step (.answer id answer) = entered.1.enter id
          (activity.answer answer entered.1.registry) :=
        Machine.step_answer answer hactivity hsuits.1
      obtain ⟨hsuits', hless⟩ := Activity.left_of_continues
        (Activity.continues_answer entered.1.registry (fun _ => true) answer hsuits.1) fun _ => rfl
      obtain ⟨m', outbox, aborts, result, moves, hattend, hidle, hservice, hstage⟩ :=
        ih { d with
            service := { d.service with machine := entered.1, outbox := outbox', aborts := aborts' }
            queued } _
          (Machine.drop_of_alone hactivities) hsuits'
          (Nat.le_of_lt_succ (Nat.lt_of_lt_of_le hless hleft))
      rw [← hanswer] at hattend hservice hstage
      rw [← hact] at hservice hstage
      refine ⟨m', outbox, aborts, result, .act (.answer id answer) :: moves, ?_, hidle, hservice,
        hstage⟩
      show Machine.attend Service.reply id n
        (entered.1.step (.answer id (Service.reply contact (_, _)).1)).1
        (entered.1.step (.answer id (Service.reply contact (_, _)).1)).2
        (Service.reply contact (_, _)).2 = _
      rw [hreply]
      exact hattend

/-- What a service does in one operation, a delivery does from the call on. -/
theorem exists_run_perform {d : Delivery} (hidle : d.service.machine.activities = [])
    (operation : Operation) :
    ∃ moves,
      ((d.act (.call operation)).run moves).service = (d.service.perform operation).1 ∧
      (d.service.perform operation).1.machine.activities = [] ∧
      ((d.act (.call operation)).run moves).stage
        = d.stage.after d.service.machine.next (d.service.perform operation).2 := by
  let m := d.service.machine.numbered (.call operation)
  have halone : (m.drop d.service.machine.next).activities = [] := by
    show d.service.machine.activities.filter _ = []
    rw [hidle]
    rfl
  obtain ⟨m', outbox, aborts, result, moves, hattend, hidle', hservice, hstage⟩ :=
    exists_run_attend d (operation.start d.service.machine.registry).1 halone
      (operation.suits_start d.service.machine.registry) (Nat.le_refl _)
  -- The service gives an operation as many stretches as it can need.
  have hfuel : (operation.start d.service.machine.registry).2.left
      = ((m.enter d.service.machine.next (operation.start d.service.machine.registry)).1.activity?
          d.service.machine.next).elim 0 Activity.stretches := by
    rw [Machine.activity?_enter_self]
    rfl
  rw [hfuel] at hattend
  have hperform : d.service.machine.perform Service.reply operation
      (d.service.outbox, d.service.aborts) = (m', (outbox, aborts), some result) := hattend
  simp only [Service.perform, hperform, Option.getD_some]
  exact ⟨moves, hservice, hidle', hstage⟩

/-- The delivery has come as far as the service, and nothing is going on in it. -/
structure Follows (d : Delivery) (s : Service) : Prop where
  service_eq : d.service = s
  idle : s.machine.activities = []
  stage_cases : (d.stage = .serving ∧ s.outcome = none) ∨
    ∃ reason, d.stage = .ended reason ∧ s.outcome.isSome = true

/-- Rounds without anything between them empty the queue as the service does in one go. -/
theorem exists_run_drain {d : Delivery} {reason : Reason} (h : d.stage = .emptying reason)
    (hidle : d.service.machine.activities = []) :
    ∃ moves, (d.run moves).Follows (d.service.drain reason.outcome) := by
  induction hqueue : d.service.outbox.queue generalizing d with
  | nil =>
    refine ⟨[.round .write], ?_⟩
    show (d.round .write).Follows _
    rw [round_of_emptying h, empty_of_nil hqueue]
    have hdrain : d.service.drain reason.outcome = d.service.finish reason.outcome := by
      simp only [Service.drain, hqueue]
    exact ⟨hdrain.symm, by rw [hdrain]; exact hidle, .inr ⟨reason, rfl, by rw [hdrain]; rfl⟩⟩
  | cons pdu later ih =>
    cases hfailure : d.service.writeFailure with
    | none =>
      -- One PDU is written, and the rest of the queue takes more rounds.
      have hwrite := write_of_cons hqueue hfailure
      obtain ⟨moves, hmoves⟩ := ih (d := d.write) (by rw [hwrite]; exact h)
        (by rw [hwrite]; exact hidle) (by rw [hwrite])
      have hdrain : d.write.service.drain reason.outcome = d.service.drain reason.outcome := by
        rw [Service.drain_eq hfailure, Service.drain_eq (by rw [hwrite]; exact hfailure), hwrite,
          hqueue]
        simp only [List.append_assoc, List.singleton_append]
      rw [hdrain] at hmoves
      refine ⟨.round .write :: moves, ?_⟩
      show ((d.round .write).run moves).Follows _
      rw [round_of_emptying h, empty_of_cons hqueue]
      exact hmoves
    | some text =>
      refine ⟨[.round .write], ?_⟩
      show (d.round .write).Follows _
      rw [round_of_emptying h, empty_of_cons hqueue, write_of_failure hqueue hfailure]
      simp only [Service.drain, hqueue, hfailure]
      exact ⟨rfl, hidle, .inr ⟨_, rfl, rfl⟩⟩

/-- A service that hands an order to its channel is followed by a delivery. -/
theorem exists_run_handle {d : Delivery} (hidle : d.service.machine.activities = [])
    (houtcome : d.service.outcome = none) (order : ServerOrder) :
    ∃ moves, ((d.handle order).run moves).Follows (d.service.handle order) := by
  obtain ⟨moves, hservice, hidle', hstage⟩ := exists_run_perform
    (d := { d with stage := .handling d.service.machine.next }) hidle
    (.dispatch d.service.channel order)
  have houtcome' : (d.service.perform (.dispatch d.service.channel order)).1.outcome = none :=
    houtcome
  unfold Service.handle
  dsimp only at hservice hidle' hstage
  rw [Stage.after_own] at hstage
  generalize d.service.perform (.dispatch d.service.channel order) = performed at *
  obtain ⟨s, result⟩ := performed
  cases result with
  | ok value => exact ⟨moves, hservice, hidle', .inl ⟨hstage, houtcome'⟩⟩
  | error cause =>
    -- What the handler queued is written as well.
    obtain ⟨later, hlater⟩ := exists_run_drain hstage (by rw [hservice]; exact hidle')
    rw [hservice] at hlater
    refine ⟨moves ++ later, ?_⟩
    rw [run_append]
    exact hlater

/-- A service that reads is followed by a delivery, whatever it reads. -/
theorem exists_run_read {d : Delivery} (hidle : d.service.machine.activities = [])
    (hstage : d.stage = .serving) (houtcome : d.service.outcome = none) :
    ∃ moves, (d.read.run moves).Follows d.service.read := by
  unfold read Service.read
  generalize d.service.inbox.poll = polled
  obtain ⟨item, inbox⟩ := polled
  match item with
  | none => exact ⟨[], rfl, hidle, .inl ⟨hstage, houtcome⟩⟩
  | some (.order order) =>
    exact exists_run_handle (d := { d with service := { d.service with inbox } }) hidle houtcome
      order
  | some (.failure cause) => exact ⟨[], rfl, hidle, .inr ⟨_, rfl, rfl⟩⟩
  | some .ended =>
    exact exists_run_drain
      (d := { d with service := { d.service with inbox }, stage := .emptying .streamEnded }) rfl
      hidle

/-- A service that writes is followed by a delivery in the same round. -/
theorem follows_write {d : Delivery} (hidle : d.service.machine.activities = [])
    (hstage : d.stage = .serving) (houtcome : d.service.outcome = none) :
    d.write.Follows d.service.write := by
  cases hqueue : d.service.outbox.queue with
  | nil =>
    by_cases hsender : d.service.hasSender = true
    · simp only [write, Service.write, hqueue, if_pos hsender]
      exact ⟨rfl, hidle, .inl ⟨hstage, houtcome⟩⟩
    · simp only [write, Service.write, hqueue, if_neg hsender]
      exact ⟨rfl, hidle, .inr ⟨_, rfl, rfl⟩⟩
  | cons pdu later =>
    cases hfailure : d.service.writeFailure with
    | none =>
      simp only [write, Service.write, hqueue, hfailure]
      exact ⟨rfl, hidle, .inl ⟨hstage, houtcome⟩⟩
    | some text =>
      simp only [write, Service.write, hqueue, hfailure]
      exact ⟨rfl, hidle, .inr ⟨_, rfl, rfl⟩⟩

/-- What a service does in one move, a delivery does in some. -/
theorem exists_run_step {d : Delivery} {s : Service} (h : d.Follows s) (move : Service.Move) :
    ∃ moves, (d.run moves).Follows (s.step move).1 := by
  obtain ⟨rfl, hidle, hcases⟩ := h
  cases move with
  | round branch =>
    obtain ⟨hstage, houtcome⟩ | ⟨reason, hstage, houtcome⟩ := hcases
    · cases branch with
      | write =>
        refine ⟨[.round .write], ?_⟩
        show (d.round .write).Follows (d.service.round .write)
        simp only [round, Service.round, hstage, houtcome]
        exact follows_write hidle hstage houtcome
      | read =>
        obtain ⟨moves, hmoves⟩ := exists_run_read hidle hstage houtcome
        refine ⟨.round .read :: moves, ?_⟩
        show ((d.round .read).run moves).Follows (d.service.round .read)
        simp only [round, Service.round, hstage, houtcome]
        exact hmoves
    · have hround : d.service.round branch = d.service :=
        (Service.round_of_ended (Option.eq_some_of_isSome houtcome) branch).1
      refine ⟨[], ?_⟩
      show d.Follows (d.service.round branch)
      rw [hround]
      exact ⟨rfl, hidle, .inr ⟨reason, hstage, houtcome⟩⟩
  | perform operation =>
    obtain ⟨moves, hservice, hidle', hstage⟩ := exists_run_perform hidle operation
    -- A delivery that has no order with its channels keeps its stage.
    have hne : d.stage ≠ .handling d.service.machine.next := by
      obtain ⟨hserving, -⟩ | ⟨reason, hended, -⟩ := hcases
      · rw [hserving]
        exact Stage.noConfusion
      · rw [hended]
        exact Stage.noConfusion
    rw [Stage.after_of_ne hne] at hstage
    refine ⟨.act (.call operation) :: moves, hservice, hidle', ?_⟩
    show (((d.act (.call operation)).run moves).stage = _ ∧ _) ∨
      ∃ reason, ((d.act (.call operation)).run moves).stage = _ ∧ _
    rw [hstage]
    exact hcases
  | send order => exact ⟨[.send order], rfl, hidle, hcases⟩
  | arrive arrival => exact ⟨[.arrive arrival], rfl, hidle, hcases⟩
  | failWrites text => exact ⟨[.failWrites text], rfl, hidle, hcases⟩
  | release => exact ⟨[.release], rfl, hidle, hcases⟩

/-- Every run of a service is a run of a delivery. -/
theorem exists_run_service {d : Delivery} {s : Service} (h : d.Follows s)
    (moves : List Service.Move) : ∃ finer, (d.run finer).Follows (s.run moves) := by
  induction moves generalizing d s with
  | nil => exact ⟨[], h⟩
  | cons move moves ih =>
    obtain ⟨first, hfirst⟩ := exists_run_step h move
    obtain ⟨later, hlater⟩ := ih hfirst
    refine ⟨first ++ later, ?_⟩
    rw [run_append]
    exact hlater

end Delivery

end RemotePrograms
