import RemotePrograms.Proofs.Order.Grammar
import RemotePrograms.Proofs.Stream.Serving

/-!
# `RemotePrograms.Proofs.Stream.Outcome`: what a whole run of a service comes to

A service whose stream arrives in full, with no failure of a read or a write and nobody else about,
does what is judged of the orders on its stream, however the stream is cut and whatever it turns
to in its rounds. The invariant of such a run is `Service.Agrees`. What was written, what is queued
and how often sessions were ended, together with the verdict on the rest of the stream, make up the
verdict on the whole of it.

The invariant also counts. Each round in which the branch was ready uses up octets of the stream or
a PDU of the queue, so only so many of them fit into a run, and a service that has not ended when
the whole stream has arrived can always read.
-/

set_option autoImplicit false

namespace RemotePrograms

namespace Service

/-- Whether a move is the service's own or an arrival. -/
def Move.isPlain : Move → Bool
  | .round _ | .arrive _ => true
  | _ => false

/-- What arrives with a move. -/
def Move.arrival? : Move → Option Arrival
  | .arrive arrival => some arrival
  | _ => none

/-- How many rounds of a run turn to a branch that is ready. -/
def readyRounds (s : Service) : List Move → Nat
  | [] => 0
  | move :: moves =>
    (match move with
      | .round branch => if s.isReady branch then 1 else 0
      | _ => 0) + readyRounds (s.step move).1 moves

/-- How many rounds an octet of the stream can lead to at most. -/
def roundsPerOctet (session : Session) : Nat :=
  session.settings.answer.2.length + 1

/-- A service that comes to this verdict, with these arrivals and at most `n` ready rounds to
come. -/
inductive Agrees (s : Service) (session : Session) (future : List Arrival) (v : Verdict)
    (n : Nat) : Prop where
  | serving {phase : Phase} {stream : Bytes} :
      s.Serves session phase → s.inbox.Carries future stream →
      v = (judge session (transcript stream).ending phase (transcript stream).orders).behind
        (s.written ++ s.outbox.queue) s.aborts →
      n = 1 + roundsPerOctet session * stream.length + s.outbox.queue.length →
      Agrees s session future v n
  | ended : s.machine.registry.Serves session v.phase → s.outcome = some v.outcome →
      s.written ++ s.outbox.queue = v.pdus → s.aborts = v.aborts →
      (v.drains = true → s.outbox.queue = []) → Agrees s session future v n

variable {s : Service} {session : Session} {phase : Phase} {future : List Arrival}
  {v : Verdict} {n : Nat}

/-- What has arrived makes no difference to whether a service is in the middle of its work. -/
theorem Serves.withInbox (h : s.Serves session phase) (box : Inbox) :
    ({ s with inbox := box } : Service).Serves session phase :=
  ⟨h.registry, h.idle, h.channel_eq, h.isOpen, h.writeFailure_eq, h.outcome_eq⟩

/-- A round of writing moves one PDU from the queue to the stream. -/
private theorem agrees_write {stream : Bytes} (h : s.Serves session phase)
    (hcarries : s.inbox.Carries future stream)
    (hv : v = (judge session (transcript stream).ending phase (transcript stream).orders).behind
      (s.written ++ s.outbox.queue) s.aborts)
    (hn : n = 1 + roundsPerOctet session * stream.length + s.outbox.queue.length) :
    ∃ n', (s.round .write).Agrees session future v n' ∧
      n' + (if s.isReady .write then 1 else 0) ≤ n := by
  have hround : s.round .write = s.write := by
    simp only [round, h.outcome_eq]
  rw [hround]
  cases hqueue : s.outbox.queue with
  | nil =>
    have hsender : s.hasSender = true := hasSender_of_channel? h.registry.channel?_eq
    have hwrite : s.write = s := by
      simp only [write, hqueue, hsender, if_true]
    have hready : s.isReady .write = false := by
      simp [isReady, hqueue, hsender]
    rw [hwrite, hready]
    exact ⟨n, .serving h hcarries hv hn, Nat.le_refl _⟩
  | cons pdu later =>
    -- What was written and what is queued make up the same list afterwards.
    have hwrite : s.write = { s with
        outbox := { s.outbox with queue := later }
        written := s.written ++ [pdu] } := by
      simp only [write, hqueue, h.writeFailure_eq]
    refine ⟨1 + roundsPerOctet session * stream.length + later.length, ?_, ?_⟩
    · rw [hwrite]
      refine .serving ⟨h.registry, h.idle, h.channel_eq, h.isOpen, h.writeFailure_eq,
        h.outcome_eq⟩ hcarries ?_ rfl
      rw [hv, hqueue]
      simp only [List.append_assoc, List.singleton_append]
    · rw [hn, hqueue, List.length_cons]
      split
      · omega
      · omega

/-- An order takes up octets of the stream, which leaves room for all that it can put into the
queue. -/
private theorem rounds_le {pdus : Nat} {rest stream : Bytes}
    (hpdus : pdus ≤ session.settings.answer.2.length)
    (hrest : rest.length + headerSize ≤ stream.length) :
    roundsPerOctet session * rest.length + pdus + 1 ≤ roundsPerOctet session * stream.length := by
  have hone : roundsPerOctet session * (rest.length + 1)
      ≤ roundsPerOctet session * stream.length := by
    refine Nat.mul_le_mul_left _ (Nat.le_trans (Nat.add_le_add_left ?_ _) hrest)
    decide
  -- One octet less pays for the order's own round and for the rounds that write its PDUs.
  rw [Nat.mul_add, Nat.mul_one] at hone
  have hper : roundsPerOctet session = session.settings.answer.2.length + 1 := rfl
  omega

/-- A service that ends in front of all further orders, and has written what it must. -/
private theorem agrees_ended {outcome : Except Error Unit} {last : Service}
    (hv : v = (judge session outcome phase []).behind (s.written ++ s.outbox.queue) s.aborts)
    (h : last.machine.registry.Serves session phase) (houtcome : last.outcome = some outcome)
    (hpdus : last.written ++ last.outbox.queue = s.written ++ s.outbox.queue)
    (haborts : last.aborts = s.aborts) (hqueue : outcome.isOk = true → last.outbox.queue = []) :
    last.Agrees session future v 0 := by
  subst hv
  refine .ended h houtcome ?_ ?_ hqueue
  · rw [hpdus]
    exact (List.append_nil _).symm
  · rw [haborts]
    exact (List.append_nil _).symm

/-- An order has the effect that the verdict takes into account, and makes room for it. -/
private theorem agrees_order {stream rest : Bytes} {order : ServerOrder}
    (h : s.Serves session phase) (hcarries : s.inbox.Carries future rest)
    (hnext : nextOrder stream = .order (.ok order) rest)
    (hv : v = (judge session (transcript stream).ending phase (transcript stream).orders).behind
      (s.written ++ s.outbox.queue) s.aborts)
    (hn : n = 1 + roundsPerOctet session * stream.length + s.outbox.queue.length) :
    ∃ n', (s.handle order).Agrees session future v n' ∧ n' + 1 ≤ n := by
  have hlength := rounds_le (length_pdus_react session phase order) (length_rest_of_nextOrder hnext)
  rw [transcript_of_order hnext] at hv
  subst hv
  obtain ⟨hregistry, haborts, hinbox, hcase⟩ := handle_order h order
  obtain ⟨hresult, hserves, hwritten, hqueue⟩ | ⟨cause, hresult, houtcome, hwritten, hqueue⟩ :=
    hcase
  · refine ⟨1 + roundsPerOctet session * rest.length + (s.handle order).outbox.queue.length,
      .serving hserves (hinbox ▸ hcarries) ?_ rfl, ?_⟩
    · rw [haborts, hwritten, hqueue]
      simp only [Transcript.cons, judge, hresult, Verdict.behind, List.append_assoc]
    · rw [hn, hqueue, List.length_append]
      omega
  · -- The order is not handled, and the verdict stops here as well.
    refine ⟨0, ?_, by omega⟩
    simp only [Transcript.cons, judge, hresult, Verdict.behind]
    refine .ended hregistry houtcome ?_ haborts fun _ => hqueue
    rw [hwritten, hqueue, List.append_nil, List.append_assoc]

/-- A round of reading takes up one order, or ends the service. -/
private theorem agrees_read {stream : Bytes} (h : s.Serves session phase)
    (hcarries : s.inbox.Carries future stream)
    (hv : v = (judge session (transcript stream).ending phase (transcript stream).orders).behind
      (s.written ++ s.outbox.queue) s.aborts)
    (hn : n = 1 + roundsPerOctet session * stream.length + s.outbox.queue.length) :
    ∃ n', (s.round .read).Agrees session future v n' ∧
      n' + (if s.isReady .read then 1 else 0) ≤ n := by
  have hround : s.round .read = s.read := by
    simp only [round, h.outcome_eq]
  have hready : s.isReady .read = s.inbox.poll.1.isSome := by
    simp [isReady, h.outcome_eq]
  rw [hround, hready, read]
  have hpolls := Inbox.poll_polls hcarries
  generalize s.inbox.poll = polled at hpolls ⊢
  cases hpolls with
  | @nothing box _ hbox => exact ⟨n, .serving (h.withInbox box) hbox hv hn, Nat.le_refl _⟩
  | @order order rest box hnext hbox => exact agrees_order (h.withInbox box) hbox hnext hv hn
  -- A failure ends the service without a drain, so the queue may keep what is in it.
  | @failure cause box htranscript =>
    rw [htranscript] at hv
    show ∃ n', (({ s with inbox := box } : Service).finish (.error cause)).Agrees session future v
      n' ∧ n' + 1 ≤ n
    exact ⟨0, agrees_ended hv h.registry rfl rfl rfl fun hok => (by cases hok), by omega⟩
  | @ended box htranscript =>
    rw [htranscript] at hv
    show ∃ n', (({ s with inbox := box } : Service).drain (.ok ())).Agrees session future v n' ∧
      n' + 1 ≤ n
    -- The end of the stream lets the queue run empty, and no write fails here.
    rw [drain_eq (s := { s with inbox := box }) h.writeFailure_eq]
    exact ⟨0, agrees_ended hv h.registry rfl (List.append_nil _) rfl fun _ => rfl, by omega⟩

/-- A round keeps the verdict, and if its branch was ready there is one round less to come. -/
theorem agrees_round (h : s.Agrees session future v n) (branch : Branch) :
    ∃ n', (s.round branch).Agrees session future v n' ∧
      n' + (if s.isReady branch then 1 else 0) ≤ n := by
  cases h with
  | serving hserves hcarries hv hn =>
    cases branch with
    | write => exact agrees_write hserves hcarries hv hn
    | read => exact agrees_read hserves hcarries hv hn
  | ended hregistry houtcome hpdus haborts hdrains =>
    obtain ⟨hround, hready⟩ := round_of_ended houtcome branch
    rw [hround, hready]
    exact ⟨n, .ended hregistry houtcome hpdus haborts hdrains, Nat.le_refl _⟩

/-- An arrival was part of the future and keeps the verdict. -/
theorem agrees_arrive {arrival : Arrival} (h : s.Agrees session (arrival :: future) v n) :
    ({ s with inbox := s.inbox.arrive arrival } : Service).Agrees session future v n := by
  cases h with
  | serving hserves hcarries hv hn =>
    exact .serving (hserves.withInbox _) hcarries.arrive hv hn
  | ended hregistry houtcome hpdus haborts hdrains =>
    exact .ended hregistry houtcome hpdus haborts hdrains

/-- A run of rounds and arrivals keeps the verdict. -/
theorem agrees_run (moves : List Move) (hplain : ∀ move ∈ moves, move.isPlain = true)
    (h : s.Agrees session (moves.filterMap Move.arrival? ++ future) v n) :
    ∃ n', (s.run moves).Agrees session future v n' ∧ n' + s.readyRounds moves ≤ n := by
  induction moves generalizing s n with
  | nil => exact ⟨n, h, Nat.le_refl _⟩
  | cons move moves ih =>
    have hlater : ∀ other ∈ moves, other.isPlain = true :=
      fun other hother => hplain other (List.mem_cons_of_mem _ hother)
    cases move with
    | round branch =>
      -- The count goes down with each ready round, so it bounds those of the whole run.
      obtain ⟨n', hround, hless⟩ := agrees_round h branch
      obtain ⟨n'', hrun, hless'⟩ := ih hlater hround
      refine ⟨n'', hrun, ?_⟩
      show n'' + ((if s.isReady branch then 1 else 0) + (s.round branch).readyRounds moves) ≤ n
      have hless'' : n'' + (s.round branch).readyRounds moves ≤ n' := hless'
      omega
    | arrive arrival =>
      obtain ⟨n', hrun, hless⟩ := ih hlater (agrees_arrive h)
      refine ⟨n', hrun, ?_⟩
      show n' + (0 + readyRounds _ moves) ≤ n
      rw [Nat.zero_add]
      exact hless
    | _ => cases hplain _ List.mem_cons_self

/-- A service on which all has arrived can read until it ends. -/
theorem isReady_read_of_agrees (h : s.Agrees session [] v n) (houtcome : s.outcome = none) :
    s.isReady .read = true := by
  cases h with
  | serving hserves hcarries hv hn =>
    have hpolls := Inbox.poll_polls hcarries
    have hready : s.isReady .read = s.inbox.poll.1.isSome := by
      simp [isReady, houtcome]
    rw [hready]
    generalize s.inbox.poll = polled at hpolls ⊢
    -- An inbox hands something out unless more is to arrive.
    cases hpolls with
    | nothing hfuture => exact absurd rfl hfuture
    | order => rfl
    | failure => rfl
    | ended => rfl
  | ended hregistry hsome =>
    rw [houtcome] at hsome
    cases hsome

end Service

/-! ### The whole run -/

/-- A service that has just begun, before anything has arrived. -/
theorem Service.start_eq (session : Session) (held : Bool) :
    Service.start (some session) remoteProgramsChannel held
      = { machine :=
            ⟨{ available := [remoteProgramsChannel]
               loaded := [remoteProgramsChannel]
               subscribers := [.remotePrograms session]
               contexts := [servedContext session .awaitingHandshake]
               connected := [(remoteProgramsChannel, 0)] }, [], 2⟩
          channel := remoteProgramsChannel
          held } := rfl

/-- A service that has just begun comes to the verdict on the whole stream. -/
theorem Service.agrees_start (session : Session) (held : Bool) (pieces : List Bytes) :
    (Service.start (some session) remoteProgramsChannel held).Agrees session
      (pieces.map .octets ++ [.ended])
      (judge session (transcript pieces.flatten).ending .awaitingHandshake
        (transcript pieces.flatten).orders)
      (1 + roundsPerOctet session * pieces.flatten.length) := by
  rw [Service.start_eq]
  exact .serving ⟨⟨rfl, rfl⟩, rfl, rfl, rfl, rfl, rfl⟩ ⟨pieces, rfl, rfl⟩ rfl rfl

/-- Octets that cannot be decoded are no matter of the channel's state. -/
theorem decode_ne_notAllowed (octets : Bytes) (text : String) :
    ServerOrder.decode octets ≠ .error (.notAllowed text) := by
  intro hdecode
  obtain ⟨order, hspells⟩ | ⟨cause, hfault⟩ := spells_or_fault octets
  · rw [hspells.decode_eq] at hdecode
    cases hdecode
  · have hcause := hfault.decode_eq.symm.trans hdecode
    cases hfault <;> cases hcause

/-- No stream ends with the failure that a refused handshake has. -/
theorem ending_transcript_ne_notAllowed (stream : Bytes) (text : String) :
    (transcript stream).ending ≠ .error (.notAllowed text) := by
  -- The induction is on the octets, of which each order takes some.
  induction hlength : stream.length using Nat.strongRecOn generalizing stream with
  | ind length ih =>
    cases hnext : nextOrder stream with
    | waiting =>
      rw [transcript_of_waiting hnext]
      show (if stream.isEmpty then Except.ok () else Except.error bytesRemaining) ≠ _
      split
      · exact fun heq => by cases heq
      · exact fun heq => by cases heq
    | broken cause =>
      rw [transcript_of_broken hnext]
      obtain ⟨length, -, -, rfl⟩ := nextOrder_eq_broken hnext
      exact fun heq => by cases heq
    | order outcome rest =>
      have hrest := length_rest_of_nextOrder hnext
      cases outcome with
      | ok order =>
        rw [transcript_of_order hnext]
        refine ih rest.length ?_ rest rfl
        rw [headerSize] at hrest
        omega
      | error cause =>
        rw [transcript_of_fault hnext]
        obtain ⟨length, -, -, -, hdecode, -⟩ := nextOrder_eq_order hnext
        intro heq
        cases heq
        exact decode_ne_notAllowed _ text hdecode.symm

/-- A service that has ended shows the verdict. -/
private theorem Service.Agrees.of_outcome {s : Service} {session : Session}
    {future : List Arrival} {v : Verdict} {n : Nat} (h : s.Agrees session future v n)
    {outcome : Except Error Unit} (houtcome : s.outcome = some outcome) :
    outcome = v.outcome ∧
      s.machine.registry.context? 0 = some (servedContext session v.phase) ∧
      s.written ++ s.outbox.queue = v.pdus ∧ s.aborts = v.aborts ∧
      (v.drains = true → s.outbox.queue = []) := by
  cases h with
  | serving hserves =>
    rw [hserves.outcome_eq] at houtcome
    cases houtcome
  | ended hregistry hsome hpdus haborts hdrains =>
    rw [houtcome] at hsome
    exact ⟨Option.some.inj hsome, hregistry.context?_eq, hpdus, haborts, hdrains⟩

/-- What a service comes to when its stream arrives in full, in whatever pieces and whatever it
turns to in its rounds. It ends, for it can read until it does and only so many rounds are ready.
When the texts of the launch fit, or none is asked for, it fails because of a handshake behind a
report of failure, or it ends as the stream does. When they do not fit, it fails at the first
handshake. -/
theorem service_outcome (session : Session) (held : Bool) (pieces : List Bytes)
    (moves : List Service.Move) (hplain : ∀ move ∈ moves, move.isPlain = true)
    (harrivals : moves.filterMap Service.Move.arrival? = pieces.map .octets ++ [.ended]) :
    let start := Service.start (some session) remoteProgramsChannel held
    let s := start.run moves
    let t := transcript pieces.flatten
    let before := t.orders.takeWhile (!·.isFailure)
    let after := t.orders.dropWhile (!·.isFailure)
    (s.outcome = none → s.isReady .read = true) ∧
    start.readyRounds moves ≤ 1 + Service.roundsPerOctet session * pieces.flatten.length ∧
    ∀ outcome, s.outcome = some outcome →
      (session.settings.Fits ∨ before.any (·.isHandshake) = false →
        ((∃ text, outcome = .error (.notAllowed text)) ↔ after.any (·.isHandshake) = true) ∧
        (after.any (·.isHandshake) = true → outcome = .error handshakeRefused) ∧
        (after.any (·.isHandshake) = false → outcome = t.ending) ∧
        s.machine.registry.context? 0 = some (servedContext session
          (if after.isEmpty then
            if before.any (·.isHandshake) then .running else .awaitingHandshake
          else .terminated .failed)) ∧
        s.aborts = session.failures (after.takeWhile (!·.isHandshake)) ∧
        s.written ++ s.outbox.queue
          = (List.replicate (before.countP (·.isHandshake))
            (session.settings.preamble ++ [session.settings.launchPdu])).flatten ∧
        (after.any (·.isHandshake) = true ∨ outcome = .ok () → s.outbox.queue = [])) ∧
      (¬ session.settings.Fits → before.any (·.isHandshake) = true →
        ∃ cause, session.settings.Exceeds cause ∧ outcome = .error cause ∧
          s.machine.registry.context? 0
            = some (servedContext session (.terminated .failed)) ∧
          s.aborts = [] ∧ s.written = session.settings.preamble ∧ s.outbox.queue = []) := by
  intro start s t before after
  have hstart : start.Agrees session (moves.filterMap Service.Move.arrival? ++ [])
      (judge session t.ending .awaitingHandshake t.orders)
      (1 + Service.roundsPerOctet session * pieces.flatten.length) := by
    rw [List.append_nil, harrivals]
    exact Service.agrees_start session held pieces
  -- The invariant at the end of the run gives all three parts.
  obtain ⟨n, hrun, hrounds⟩ := Service.agrees_run moves hplain hstart
  refine ⟨Service.isReady_read_of_agrees hrun, by omega, fun outcome houtcome => ?_⟩
  obtain ⟨hverdict, hcontext, hpdus, haborts, hdrains⟩ := hrun.of_outcome houtcome
  refine ⟨fun hcase => ?_, fun hnot hbefore => ?_⟩
  · -- Every handshake that was asked for was answered in full.
    have hanswer : session.settings.answer.1 = .ok () ∨ before.any (·.isHandshake) = false := by
      refine hcase.imp_left fun hfits => ?_
      obtain ⟨-, hanswer⟩ | ⟨cause, hexceeds, -⟩ := session.settings.answer_cases
      · rw [hanswer]
      · exact absurd hfits hexceeds.not_fits
    rw [judge_eq (.inl rfl) t.orders hanswer] at hverdict hcontext hpdus haborts hdrains
    have houtcome' : outcome
        = if after.any (·.isHandshake) then .error handshakeRefused else t.ending := hverdict
    have hrefused : after.any (·.isHandshake) = true → outcome = .error handshakeRefused := by
      intro hafter
      rw [houtcome', if_pos hafter]
    refine ⟨⟨?_, fun hafter => ⟨_, hrefused hafter⟩⟩, hrefused, fun hafter => ?_, hcontext, haborts,
      ?_, fun hall => hdrains ?_⟩
    · -- The end of a stream is no refusal, so a handshake was refused.
      rintro ⟨text, htext⟩
      by_cases hafter : after.any (·.isHandshake) = true
      · exact hafter
      · rw [houtcome', if_neg hafter] at htext
        exact absurd htext (ending_transcript_ne_notAllowed _ _)
    · rw [houtcome', if_neg (by simp [hafter])]
    · rw [hpdus]
      show (List.replicate (before.countP (·.isHandshake)) session.settings.answer.2).flatten = _
      obtain ⟨-, hfits⟩ | ⟨cause, hexceeds, -⟩ := session.settings.answer_cases
      · rw [hfits]
      · -- Texts that do not fit were not asked for.
        have hnone : before.any (·.isHandshake) = false :=
          hcase.resolve_left hexceeds.not_fits
        have hcount : before.countP (·.isHandshake) = 0 := by
          rw [List.countP_eq_zero]
          intro order hmem hhandshake
          have hany : before.any (·.isHandshake) = true :=
            List.any_eq_true.mpr ⟨order, hmem, hhandshake⟩
          rw [hnone] at hany
          cases hany
        rw [hcount]
        rfl
    · show (after.any (·.isHandshake) || t.ending.isOk) = true
      obtain hafter | hok := hall
      · rw [hafter, Bool.true_or]
      · by_cases hafter : after.any (·.isHandshake) = true
        · rw [hafter, Bool.true_or]
        · rw [hok, if_neg hafter] at houtcome'
          rw [← houtcome']
          exact Bool.or_true _
  · -- The first handshake is the end.
    obtain ⟨hfits, -⟩ | ⟨cause, hexceeds, hanswer⟩ := session.settings.answer_cases
    · exact absurd hfits hnot
    · have hjudge : judge session t.ending .awaitingHandshake t.orders = _ :=
        judge_broken (.inl rfl) t.orders hanswer hbefore
      rw [hjudge] at hverdict hcontext hpdus haborts hdrains
      have hqueue := hdrains rfl
      rw [hqueue, List.append_nil] at hpdus
      exact ⟨cause, hexceeds, hverdict, hcontext, haborts, hpdus, hqueue⟩

/-- A handshake arrives in two pieces and is answered, and then the stream ends. -/
def cutHandshake : List Service.Move :=
  [.arrive (.octets [5, 0, 8]), .round .read, .arrive (.octets [0, 0, 0, 0, 0]), .round .read,
    .round .write, .arrive .ended, .round .read]

/-- It ends well, without an end of the session, and the channel runs. -/
theorem service_outcome_cutHandshake :
    let s := (Service.start (some ⟨0, {}⟩) remoteProgramsChannel false).run cutHandshake
    s.outcome = some (.ok ()) ∧ s.aborts = [] ∧
      s.machine.registry.context? 0 = some (servedContext ⟨0, {}⟩ .running) := by
  have htranscript : transcript [5, 0, 8, 0, 0, 0, 0, 0] = ⟨[.handshake ⟨0⟩], .ok ()⟩ := by
    have hnext : nextOrder [5, 0, 8, 0, 0, 0, 0, 0] = .order (.ok (.handshake ⟨0⟩)) [] := rfl
    rw [transcript_of_order hnext, transcript_of_waiting rfl]
    rfl
  obtain ⟨-, -, hends⟩ := service_outcome ⟨0, {}⟩ false [[5, 0, 8], [0, 0, 0, 0, 0]] cutHandshake
    (by decide) rfl
  obtain ⟨hends, -⟩ := hends (.ok ()) rfl
  obtain ⟨-, -, -, hcontext, haborts, -⟩ := hends (.inl ⟨by decide, by decide, by decide⟩)
  rw [show ([[5, 0, 8], [0, 0, 0, 0, 0]] : List Bytes).flatten = [5, 0, 8, 0, 0, 0, 0, 0] from rfl,
    htranscript] at hcontext haborts
  exact ⟨rfl, haborts, hcontext⟩

end RemotePrograms
