import RemotePrograms.Proofs.Stream.Balance
import RemotePrograms.Proofs.Stream.Endings

/-!
# `RemotePrograms.Proofs.Stream.Written`: what becomes of the PDUs that are queued

`delivery_writes` is about every run of a service, at the grain of a `Delivery`. Its parts, in the
order in which it states them:

* What is written is the beginning of what was queued, and as long as no write failed the rest is
  still in the queue.
* The outcome is that of the stage. At a clean end everything was written, and behind an end
  nothing changes.
* A service that empties its queue gets to the end in a round for each PDU and one more.
* Whatever a service ends for was settled by a move of the run. Whatever a move settles is what
  the service ends for, with everything written if that end is clean, unless a write fails.
* A write that fails is the outcome, and nothing is written from then on.
* An order for a channel that is not there settles the end with a failure that names the channel.
* Every run of a `Service` is among the runs that all this is said of.

`failed_read_unwritten` is about the one end that does not look after the queue. When a read fails,
what is queued stays there. `answer_unwritten` is a service that loses the whole answer to a
handshake so.
-/

set_option autoImplicit false

namespace RemotePrograms

namespace Delivery

/-- The end for which a write failed comes at once. -/
theorem Balanced.stage_eq_of_writeFailed {d : Delivery} (h : d.Balanced) {text : String}
    (hreason : d.stage.reason? = some (.writeFailed text)) :
    d.stage = .ended (.writeFailed text) := by
  obtain hstage | hstage := Stage.of_reason? hreason
  · cases h.isClean _ hstage
  · exact hstage

/-- What a reason comes to: the queue is being emptied, or it was and this is the outcome, or a
write failed and that is the outcome. -/
theorem Balanced.endsAs_cases {d : Delivery} (h : d.Balanced) {reason : Reason}
    (hends : d.EndsAs reason) :
    d.stage = .emptying reason ∨
      (d.service.outcome = some reason.outcome ∧
        (reason.isClean = true → d.service.written = d.queued)) ∨
      ∃ text, d.service.outcome = some (.error (.streamFailed text)) := by
  obtain hreason | ⟨text, hreason⟩ := hends
  · obtain hstage | hstage := Stage.of_reason? hreason
    · exact .inl hstage
    · exact .inr (.inl ⟨by rw [h.outcome_eq, hstage]; rfl, h.written_eq hstage⟩)
  · exact .inr (.inr ⟨text, by rw [h.outcome_eq, h.stage_eq_of_writeFailed hreason]; rfl⟩)

/-- A service whose write fails ends with that failure and writes nothing from then on. -/
theorem written_of_settles {d : Delivery} (h : d.Balanced) {move : Move} {text : String}
    (hsettles : d.Settles move (.writeFailed text)) (later : List Move) :
    ((d.step move).run later).service.outcome = some (.error (.streamFailed text)) ∧
      ((d.step move).run later).service.written = d.service.written := by
  have hstep : (d.step move).Balanced := balanced_step h move
  have hstage : (d.step move).stage = .ended (.writeFailed text) :=
    hstep.stage_eq_of_writeFailed hsettles.reason?_step
  have hwritten : (d.step move).service.written = d.service.written := by
    cases hsettles with
    | writeFailed hwrites hqueue hfailure =>
      show (d.round _).service.written = _
      rw [round_of_writes hwrites hqueue, write_of_failure hqueue hfailure]
      rfl
  have hkeeps := keeps_run hstep hstage later
  refine ⟨?_, hkeeps.written_eq.trans hwritten⟩
  rw [(balanced_run hstep later).outcome_eq, hkeeps.stage_eq, hstage]
  rfl

/-- A failed read ends a service and leaves its queue alone. -/
theorem keeps_of_readFailed {d : Delivery} (h : d.Balanced) {cause : Error}
    (hsettles : d.Settles (.round .read) (.readFailed cause)) (later : List Move) :
    ((d.step (.round .read)).run later).service.outbox.queue = d.service.outbox.queue ∧
      ((d.step (.round .read)).run later).service.written = d.service.written ∧
      ((d.step (.round .read)).run later).queued = d.queued := by
  cases hsettles with
  | readFailed hstage hpoll =>
    obtain ⟨inbox, hinbox⟩ : ∃ inbox, d.service.inbox.poll = (some (.failure cause), inbox) :=
      ⟨_, Prod.ext hpoll rfl⟩
    have hround : d.step (.round .read)
        = { d with
            service := { d.service with inbox }.finish (.error cause)
            stage := .ended (.readFailed cause) } := by
      show d.round .read = _
      simp only [round, hstage, read, hinbox]
    have hkeeps := keeps_run (balanced_step h (.round .read)) (by rw [hround]) later
    rw [hround] at hkeeps ⊢
    exact ⟨hkeeps.queue_eq, hkeeps.written_eq, hkeeps.queued_eq⟩

end Delivery

/-- What a service writes, whatever arrives, whoever queues something at whatever time, whatever
the callbacks do, and whatever it turns to in its rounds. What is written is the beginning of what
was queued, and while no write failed the rest is still in the queue. A service that ends because
nobody is left, because the stream ended, or because an order could not be handled has written
everything by then, and writes nothing more. One move settles why it ends, and so it does, with the
outcome that belongs to the reason, unless a write fails first. -/
theorem delivery_writes (registry : Registry) (channel : String) (held : Bool)
    (moves : List Delivery.Move) :
    let start := Delivery.new registry channel held
    let d := start.run moves
    d.service.written <+: d.queued ∧
    ((∀ text, d.stage ≠ .ended (.writeFailed text)) →
      d.queued = d.service.written ++ d.service.outbox.queue) ∧
    d.service.outcome = d.stage.outcome ∧
    (∀ reason, d.stage = .ended reason →
      (reason.isClean = true → d.service.written = d.queued) ∧
      ∀ later, d.Keeps (d.run later)) ∧
    (∀ reason, d.stage = .emptying reason → ∀ branches : List Branch,
      d.service.outbox.queue.length < branches.length →
      ∃ last, (d.run (branches.map .round)).stage = .ended last) ∧
    (∀ reason, d.stage.reason? = some reason → ∃ before move after,
      moves = before ++ move :: after ∧ (start.run before).Settles move reason) ∧
    (∀ move reason, d.Settles move reason → ∀ later,
      let d' := (d.step move).run later
      d'.stage = .emptying reason ∨
      (d'.service.outcome = some reason.outcome ∧
        (reason.isClean = true → d'.service.written = d'.queued)) ∨
      ∃ text, d'.service.outcome = some (.error (.streamFailed text))) ∧
    (∀ move text, d.Settles move (.writeFailed text) → ∀ later,
      let d' := (d.step move).run later
      d'.service.outcome = some (.error (.streamFailed text)) ∧
      d'.service.written = d.service.written) ∧
    (∀ order, d.stage = .serving → d.service.inbox.poll.1 = some (.order order) →
      d.service.machine.registry.channel? channel = none →
      d.Settles (.round .read) (.unhandled (.noChannel channel))) ∧
    ∀ coarse : List Service.Move, ∃ finer, (start.run finer).service
      = ({ machine := .ofRegistry registry, channel, held } : Service).run coarse := by
  intro start d
  have hbalanced : d.Balanced :=
    Delivery.balanced_run (Delivery.balanced_new registry channel held) moves
  refine ⟨hbalanced.isPrefix, fun hnot => ?_, hbalanced.outcome_eq,
    fun reason hstage => ⟨hbalanced.written_eq hstage, Delivery.keeps_run hbalanced hstage⟩,
    fun reason hstage => Delivery.exists_ended_of_rounds hbalanced hstage,
    fun reason => Delivery.exists_settles rfl moves, fun move reason hsettles later => ?_,
    fun move text hsettles => Delivery.written_of_settles hbalanced hsettles,
    fun order hstage hpoll hchannel => ?_, fun coarse => ?_⟩
  · refine hbalanced.queued_eq ?_
    cases hstage : d.stage with
    | ended reason =>
      cases reason with
      | writeFailed text => exact absurd hstage (hnot text)
      | _ => rfl
    | _ => rfl
  · -- The reason stays, and the books say what it comes to.
    have hlater := Delivery.balanced_run (Delivery.balanced_step hbalanced move) later
    exact hlater.endsAs_cases (Delivery.endsAs_run (.inl hsettles.reason?_step) later)
  · have hsame : d.service.channel = channel := start.channel_run moves
    rw [← hsame] at hchannel ⊢
    exact Delivery.settles_noChannel hstage hpoll hchannel
  · have hnew : start.Follows { machine := .ofRegistry registry, channel, held } :=
      ⟨rfl, rfl, .inl ⟨rfl, rfl⟩⟩
    obtain ⟨finer, hfiner⟩ := Delivery.exists_run_service hnew coarse
    exact ⟨finer, hfiner.service_eq⟩

/-- A channel whose orders are handled by callbacks of somebody else. -/
def callbackRegistry : Registry where
  available := [remoteProgramsChannel]
  contexts := [{ name := remoteProgramsChannel, transport := 0, handler := some (.custom 0) }]
  connected := [(remoteProgramsChannel, 0)]

/-- The callbacks queue a record and then fail. While the queue is being emptied somebody else
queues one more. -/
def failedCallback : List Delivery.Move :=
  [.arrive (.octets [5, 0, 8, 0, 0, 0, 0, 0]), .round .read, .send (.handshake .client),
    .act (.answer 0 (.error (.badText "title"))), .round .read, .send (.clientStatus {}),
    .round .write, .round .read]

/-- Both records are written, and the failure of the callbacks is the outcome. -/
theorem delivery_writes_failedCallback :
    let d := (Delivery.new callbackRegistry remoteProgramsChannel false).run failedCallback
    d.service.outcome = some (.error (.badText "title")) ∧ d.service.written = d.queued ∧
      d.queued.length = 2 := by
  obtain ⟨-, -, houtcome, hended, -⟩ :=
    delivery_writes callbackRegistry remoteProgramsChannel false failedCallback
  exact ⟨houtcome, (hended (.unhandled (.badText "title")) rfl).1 rfl, rfl⟩

/-- A failed read ends a service at once. What was queued until then and not written stays in the
queue, so nothing is lost only if the queue was empty when the read failed. -/
theorem failed_read_unwritten (registry : Registry) (channel : String) (held : Bool)
    (moves : List Delivery.Move) (cause : Error)
    (h : ((Delivery.new registry channel held).run moves).stage = .ended (.readFailed cause)) :
    let start := Delivery.new registry channel held
    let d := start.run moves
    d.service.outcome = some (.error cause) ∧
    d.queued = d.service.written ++ d.service.outbox.queue ∧
    ∃ before after, moves = before ++ .round .read :: after ∧
      (start.run before).Settles (.round .read) (.readFailed cause) ∧
      d.service.written = (start.run before).service.written ∧
      d.queued = (start.run before).queued ∧
      (d.service.written = d.queued ↔ (start.run before).service.outbox.queue = []) := by
  intro start d
  have hbalanced : d.Balanced :=
    Delivery.balanced_run (Delivery.balanced_new registry channel held) moves
  have hqueued : d.queued = d.service.written ++ d.service.outbox.queue :=
    hbalanced.queued_eq (by rw [h]; rfl)
  have hreason : d.stage.reason? = some (.readFailed cause) := by
    rw [h]
    rfl
  obtain ⟨before, move, after, rfl, hsettles⟩ :=
    Delivery.exists_settles (d := start) rfl moves hreason
  have hbefore : (start.run before).Balanced :=
    Delivery.balanced_run (Delivery.balanced_new registry channel held) before
  obtain rfl : move = .round .read := by
    cases hsettles with
    | readFailed => rfl
  -- Nothing is written or queued once the read has failed.
  have hrun : d = ((start.run before).step (.round .read)).run after :=
    start.run_append before (.round .read :: after)
  obtain ⟨hqueue, hwritten, hqueued'⟩ := Delivery.keeps_of_readFailed hbefore hsettles after
  rw [← hrun] at hqueue hwritten hqueued'
  refine ⟨hbalanced.outcome_eq.trans (by rw [h]; rfl), hqueued, before, after, rfl, hsettles,
    hwritten, hqueued', ?_⟩
  rw [← hqueue, hqueued]
  exact List.self_eq_append_right

/-- A record is queued, and a header that announces nothing is read before it is written. -/
def queuedBeforeBadHeader : List Delivery.Move :=
  [.send (.handshake .client), .arrive (.octets [5, 0, 0, 0]), .round .read, .round .write]

/-- The service ends on the header, and the record is still in the queue. -/
theorem failed_read_unwritten_badHeader :
    let d := (Delivery.new callbackRegistry remoteProgramsChannel true).run
      queuedBeforeBadHeader
    d.service.outcome = some (.error (.badLength 0)) ∧ d.service.written ≠ d.queued := by
  obtain ⟨houtcome, -⟩ := failed_read_unwritten callbackRegistry remoteProgramsChannel true
    queuedBeforeBadHeader (.badLength 0) rfl
  exact ⟨houtcome, by decide⟩

/-- A handshake arrives with a header behind it that announces nothing, and the service reads on
before it writes. -/
def badHeaderBehindHandshake : List Service.Move :=
  [.arrive (.octets ([5, 0, 8, 0, 0, 0, 0, 0] ++ [5, 0, 0, 0])), .round .read, .round .read,
    .round .write]

/-- The handshake is handled, but the whole answer to it stays in the queue, though no write
failed. -/
theorem answer_unwritten :
    let s := (Service.start (some ⟨0, {}⟩) remoteProgramsChannel false).run
      badHeaderBehindHandshake
    s.outcome = some (.error (.badLength 0)) ∧ s.writeFailure = none ∧
      s.machine.registry.context? 0 = some (servedContext ⟨0, {}⟩ .running) ∧
      s.written = [] ∧ s.outbox.queue.length = 9 := by
  decide

end RemotePrograms
