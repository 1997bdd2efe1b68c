import Mathlib.Data.List.Basic
import RemotePrograms.Proofs.Stream.Outcome
import RemotePrograms.Stream.Trial

/-!
# `RemotePrograms.Proofs.Stream.Trial`: what a trial has seen when it ends

A trial hears of its session's end in two ways, by asking for it and by looking back when the
service has ended, and it may do either at any time. Its outcome does not depend on that. What
counts is which orders were dispatched before the run ended, and `Trial.dispatched` collects them.

The stream is not assumed to end, or to be sound. `TakenOff` says that some orders are the first
ones of a stream and which octets are left behind them, and `Service.Stands` is what a service has
come to after it took them: it attends to its channel still, or it has ended. `Trial.Stands` adds
how the run ended.
-/

set_option autoImplicit false

namespace RemotePrograms

/-! ### Orders taken off a stream -/

/-- Puts orders in front. -/
def Transcript.behind (taken : List ServerOrder) (t : Transcript) : Transcript :=
  { t with orders := taken ++ t.orders }

/-- These are the first orders of the stream, and of the octets behind them these were read. -/
def TakenOff (stream : Bytes) (taken : List ServerOrder) (left : Bytes) : Prop :=
  ∀ later, transcript (stream ++ later) = (transcript (left ++ later)).behind taken

namespace TakenOff

variable {stream left rest : Bytes} {taken : List ServerOrder} {received : ServerOrder}

/-- Off an empty stream no order was taken, and nothing is left of it. -/
theorem nothing : TakenOff [] [] [] := fun _ => rfl

/-- More octets are read. -/
theorem read (h : TakenOff stream taken left) (octets : Bytes) :
    TakenOff (stream ++ octets) taken (left ++ octets) := by
  intro later
  rw [List.append_assoc, List.append_assoc]
  exact h (octets ++ later)

/-- The next order is taken off. -/
theorem order (h : TakenOff stream taken left)
    (hnext : nextOrder left = .order (.ok received) rest) :
    TakenOff stream (taken ++ [received]) rest := by
  intro later
  rw [h later, transcript_of_order (nextOrder_append hnext later)]
  simp [Transcript.behind, Transcript.cons]

/-- The orders that were taken off a stream are its first ones. -/
theorem isPrefix (h : TakenOff stream taken left) : taken <+: (transcript stream).orders := by
  have hstream := h []
  rw [List.append_nil] at hstream
  rw [hstream]
  exact List.prefix_append taken _

/-- When nothing is left, the orders are all that the stream says. -/
theorem transcript_eq (h : TakenOff stream taken []) : transcript stream = ⟨taken, .ok ()⟩ := by
  have hstream := h []
  have hempty : transcript [] = ⟨[], .ok ()⟩ := transcript_of_waiting rfl
  rw [List.append_nil, List.append_nil, hempty] at hstream
  rw [hstream]
  simp [Transcript.behind]

end TakenOff

/-- Of what has arrived these orders were taken. These octets were read behind them, and these
arrivals wait. -/
def Leaves (arrived : List Arrival) (taken : List ServerOrder) (left : Bytes)
    (more : List Arrival) : Prop :=
  ∃ pieces : List Bytes, arrived = pieces.map .octets ++ more ∧ TakenOff pieces.flatten taken left

namespace Leaves

variable {arrived more : List Arrival} {taken : List ServerOrder} {left rest : Bytes}

/-- One more arrival waits behind the others. -/
theorem arrive (h : Leaves arrived taken left more) (arrival : Arrival) :
    Leaves (arrived ++ [arrival]) taken left (more ++ [arrival]) := by
  rcases h with ⟨pieces, rfl, htaken⟩
  exact ⟨pieces, List.append_assoc .., htaken⟩

/-- Some pieces are read. -/
theorem read {pieces : List Bytes} (h : Leaves arrived taken left (pieces.map .octets ++ more)) :
    Leaves arrived taken (left ++ pieces.flatten) more := by
  rcases h with ⟨before, rfl, htaken⟩
  refine ⟨before ++ pieces, ?_, ?_⟩
  · rw [List.map_append, List.append_assoc]
  · rw [List.flatten_append]
    exact htaken.read pieces.flatten

/-- An order is taken off the octets that were read. -/
theorem order (h : Leaves arrived taken left more) {received : ServerOrder}
    (hnext : nextOrder left = .order (.ok received) rest) :
    Leaves arrived (taken ++ [received]) rest more := by
  rcases h with ⟨pieces, harrived, htaken⟩
  exact ⟨pieces, harrived, htaken.order hnext⟩

end Leaves

/-! ### Ends of a session -/

/-- The ends that some orders bring come before those that later ones bring. -/
theorem Session.failures_append (session : Session) (orders later : List ServerOrder) :
    session.failures (orders ++ later) = session.failures orders ++ session.failures later := by
  unfold failures
  rw [List.countP_append, List.replicate_append_replicate]

/-- A session is not ended if and only if no order reports a failure. -/
theorem Session.failures_eq_nil_iff (session : Session) (orders : List ServerOrder) :
    session.failures orders = [] ↔ orders.any (·.isFailure) = false := by
  unfold failures
  rw [List.replicate_eq_nil_iff, List.countP_eq_zero, List.any_eq_false]

/-- What becomes of one order ends the session as often as the order is a report of failure. -/
theorem aborts_react (session : Session) (phase : Phase) (order : ServerOrder) :
    (react session phase order).aborts = session.failures [order] := by
  rcases order.kind_cases with ⟨hhandshake, hfailure⟩ | ⟨-, hfailure⟩ | ⟨hnot, hfailure⟩
  · rw [react_of_isHandshake hhandshake, aborts_reactToHandshake,
      Session.failures_cons_of_not hfailure]
    rfl
  · rw [react_of_isFailure hfailure, Session.failures_cons_of_isFailure hfailure]
    rfl
  · rw [react_of_other hnot hfailure, Session.failures_cons_of_not hfailure]
    rfl

/-- Only the first end of a session counts, whatever ends follow it. -/
theorem Outcome.ofAborts_cons (first : Abort) (later : List Abort) :
    Outcome.ofAborts (first :: later) = .aborted first.reason first.message := by
  show later.foldl (fun (outcome : Outcome) a => outcome.after a.reason a.message)
    (aborted first.reason first.message) = _
  induction later with
  | nil => rfl
  | cons abort later ih => exact ih

/-- The outcome of a run in which these orders were dispatched. -/
theorem Outcome.ofAborts_failures (session : Session) (orders : List ServerOrder) :
    Outcome.ofAborts (session.failures orders)
      = if orders.any (·.isFailure) then .aborted .peerUnavailable launchFailedMessage
        else .completed := by
  cases hany : orders.any (·.isFailure) with
  | false =>
    rw [(session.failures_eq_nil_iff orders).mpr hany]
    rfl
  | true =>
    cases hfailures : session.failures orders with
    | nil =>
      rw [(session.failures_eq_nil_iff orders).mp hfailures] at hany
      cases hany
    | cons first later =>
      have hfirst : first = session.launchFailure := by
        refine List.eq_of_mem_replicate (n := orders.countP (·.isFailure)) ?_
        show first ∈ session.failures orders
        rw [hfailures]
        exact List.mem_cons_self
      rw [ofAborts_cons, hfirst]
      rfl

/-! ### The service -/

namespace Service

/-- Whether a move is one that happens to a service that nobody else has a part in. -/
def Move.isOwn : Move → Bool
  | .round _ | .arrive _ | .failWrites _ => true
  | _ => false

/-- The order that a move dispatches to the channel. -/
def taken? (s : Service) : Move → Option ServerOrder
  | .round .read =>
    match s.outcome, s.inbox.poll.1 with
    | none, some (.order order) => some order
    | _, _ => none
  | _ => none

/-- A service that attends to its channel, whether or not it can write. -/
structure Attends (s : Service) (session : Session) (phase : Phase) : Prop where
  registry : s.machine.registry.Serves session phase
  idle : s.machine.activities = []
  channel_eq : s.channel = remoteProgramsChannel
  isOpen : s.outbox.isOpen = true
  outcome_eq : s.outcome = none

/-- What a service has come to that took these orders, when all this has arrived. If it has ended
well, then because its stream had ended. -/
inductive Stands (session : Session) (taken : List ServerOrder) (arrived : List Arrival)
    (s : Service) : Prop where
  | going {phase : Phase} : s.Attends session phase → s.aborts = session.failures taken →
      Leaves arrived taken s.inbox.buffer s.inbox.arrivals → Stands session taken arrived s
  | ended {outcome : Except Error Unit} {left : Bytes} {more : List Arrival} :
      s.outcome = some outcome → s.aborts = session.failures taken →
      Leaves arrived taken left more →
      (outcome = .ok () → left = [] ∧ ∃ later, more = .ended :: later) →
      Stands session taken arrived s

variable {s : Service} {session : Session} {phase : Phase} {taken : List ServerOrder}
  {arrived : List Arrival}

/-- Writing what is queued ends the service as it would have ended, or with a failure to write. -/
theorem drain_cases (s : Service) (outcome : Except Error Unit) :
    (s.drain outcome).aborts = s.aborts ∧
      ((s.drain outcome).outcome = some outcome ∨
        ∃ text, (s.drain outcome).outcome = some (.error (.streamFailed text))) := by
  unfold drain
  split
  · exact ⟨rfl, .inl rfl⟩
  · exact ⟨rfl, .inr ⟨_, rfl⟩⟩
  · exact ⟨rfl, .inl rfl⟩

/-- An order that is handed to the channel is counted, and then the service goes on or ends with a
failure. -/
theorem Attends.handle (h : s.Attends session phase) (order : ServerOrder) :
    (s.handle order).aborts = s.aborts ++ session.failures [order] ∧
      (((∃ phase', (s.handle order).Attends session phase') ∧
          (s.handle order).inbox = s.inbox) ∨
        ∃ cause, (s.handle order).outcome = some (.error cause)) := by
  rw [← aborts_react session phase order]
  obtain ⟨⟨registry, activities, next⟩, channel, held, inbox, outbox, failure, written, aborts,
    outcome⟩ := s
  obtain ⟨hregistry, hidle, hchannel, hopen, houtcome⟩ := h
  subst hidle hchannel houtcome
  rcases perform_dispatch next hregistry order hopen aborts with ⟨r', hserves, hperform⟩
  simp only [Service.handle, perform, hperform]
  cases hresult : (react session phase order).result with
  | ok value => exact ⟨rfl, .inl ⟨⟨_, hserves, rfl, rfl, hopen, rfl⟩, rfl⟩⟩
  | error cause =>
    simp only [Except.map, Option.getD_some]
    generalize hafter : Service.mk _ _ _ _ _ _ _ _ _ = after
    rcases after.drain_cases (.error cause) with ⟨haborts, hended | ⟨text, hended⟩⟩
    · exact ⟨by rw [haborts, ← hafter], .inr ⟨cause, hended⟩⟩
    · exact ⟨by rw [haborts, ← hafter], .inr ⟨_, hended⟩⟩

/-- A round that writes takes no order. -/
theorem Stands.write (h : s.Stands session taken arrived) (hgoing : s.outcome = none) :
    s.write.Stands session taken arrived := by
  cases h with
  | ended hended =>
    rw [hgoing] at hended
    cases hended
  | going hattends haborts hleaves =>
    unfold Service.write
    split
    · -- There is nothing to write, and the channel may still queue something.
      rw [if_pos (hasSender_of_channel? hattends.registry.channel?_eq)]
      exact .going hattends haborts hleaves
    · exact .ended rfl haborts hleaves fun hok => by cases hok
    · exact .going ⟨hattends.registry, hattends.idle, hattends.channel_eq, hattends.isOpen,
        hattends.outcome_eq⟩ haborts hleaves

/-- A round that reads takes the order that was handed out, if one was. -/
theorem Stands.read (h : s.Stands session taken arrived) (hgoing : s.outcome = none) :
    s.read.Stands session (taken ++ (s.taken? (.round .read)).toList) arrived := by
  cases h with
  | ended hended =>
    rw [hgoing] at hended
    cases hended
  | @going phase hattends haborts hleaves =>
    have hattends' : ∀ inbox, ({ s with inbox } : Service).Attends session phase := fun _ =>
      ⟨hattends.registry, hattends.idle, hattends.channel_eq, hattends.isOpen, hgoing⟩
    have htakes : Inbox.Takes s.inbox.buffer s.inbox.arrivals s.inbox.poll :=
      Inbox.pollFrom_takes _ _
    generalize hpolled : s.inbox.poll = handed at htakes
    cases htakes with
    | @nothing pieces hmore =>
      rw [show s.taken? (.round .read) = none by simp only [taken?, hgoing, hpolled],
        show s.read = { s with inbox := ⟨s.inbox.buffer ++ pieces.flatten, []⟩ } by
          simp only [Service.read, hpolled], Option.toList_none, List.append_nil]
      refine .going (hattends' _) haborts (Leaves.read ?_)
      rw [List.append_nil, ← hmore]
      exact hleaves
    | @order pieces later order rest hmore hnext =>
      rw [show s.taken? (.round .read) = some order by simp only [taken?, hgoing, hpolled],
        show s.read = ({ s with inbox := ⟨rest, later⟩ } : Service).handle order by
          simp only [Service.read, hpolled], Option.toList_some]
      rw [hmore] at hleaves
      have hleaves' := hleaves.read.order hnext
      rcases (hattends' ⟨rest, later⟩).handle order with ⟨hends, hgoes⟩
      have hends' : (({ s with inbox := ⟨rest, later⟩ } : Service).handle order).aborts
          = session.failures (taken ++ [order]) := by
        rw [hends, Session.failures_append, ← haborts]
      rcases hgoes with ⟨⟨phase', hgoes⟩, hinbox⟩ | ⟨cause, hfails⟩
      · refine .going hgoes hends' ?_
        rw [hinbox]
        exact hleaves'
      · exact .ended hfails hends' hleaves' fun hok => by cases hok
    | @failure cause box =>
      -- What is read before a failure does not matter.
      rw [show s.taken? (.round .read) = none by simp only [taken?, hgoing, hpolled],
        show s.read = ({ s with inbox := box } : Service).finish (.error cause) by
          simp only [Service.read, hpolled], Option.toList_none, List.append_nil]
      exact .ended rfl haborts hleaves fun hok => by cases hok
    | @ended pieces later box hmore hempty =>
      rw [show s.taken? (.round .read) = none by simp only [taken?, hgoing, hpolled],
        show s.read = ({ s with inbox := box } : Service).drain (.ok ()) by
          simp only [Service.read, hpolled], Option.toList_none, List.append_nil]
      rw [hmore] at hleaves
      have hleaves' := hleaves.read
      rcases ({ s with inbox := box } : Service).drain_cases (.ok ())
        with ⟨hends, hended | ⟨text, hended⟩⟩
      · exact .ended hended (hends.trans haborts) hleaves' fun _ => ⟨hempty, later, rfl⟩
      · exact .ended hended (hends.trans haborts) hleaves' fun hok => by cases hok

/-- Something arrives. -/
theorem Stands.arrive (h : s.Stands session taken arrived) (arrival : Arrival) :
    ({ s with inbox := s.inbox.arrive arrival } : Service).Stands session taken
      (arrived ++ [arrival]) := by
  cases h with
  | going hattends haborts hleaves =>
    exact .going ⟨hattends.registry, hattends.idle, hattends.channel_eq, hattends.isOpen,
      hattends.outcome_eq⟩ haborts (hleaves.arrive arrival)
  | ended hended haborts hleaves hok =>
    refine .ended hended haborts (hleaves.arrive arrival) fun hwell => ?_
    rcases hok hwell with ⟨hleft, later, rfl⟩
    exact ⟨hleft, later ++ [arrival], rfl⟩

/-- Writes begin to fail. -/
theorem Stands.failWrites (h : s.Stands session taken arrived) (text : String) :
    ({ s with writeFailure := some text } : Service).Stands session taken arrived := by
  cases h with
  | going hattends haborts hleaves =>
    exact .going ⟨hattends.registry, hattends.idle, hattends.channel_eq, hattends.isOpen,
      hattends.outcome_eq⟩ haborts hleaves
  | ended hended haborts hleaves hok => exact .ended hended haborts hleaves hok

/-- The ends of the session are those that the orders it took bring. -/
theorem Stands.aborts_eq (h : s.Stands session taken arrived) :
    s.aborts = session.failures taken := by
  cases h with
  | going _ haborts => exact haborts
  | ended _ haborts => exact haborts

/-- The orders that a service took were taken off what has arrived. -/
theorem Stands.exists_leaves (h : s.Stands session taken arrived) :
    ∃ left more, Leaves arrived taken left more := by
  cases h with
  | going _ _ hleaves => exact ⟨_, _, hleaves⟩
  | ended _ _ hleaves => exact ⟨_, _, hleaves⟩

/-- Whatever happens to a service on its own keeps the account. -/
theorem Stands.step (h : s.Stands session taken arrived) {move : Move}
    (hown : move.isOwn = true) :
    (s.step move).1.Stands session (taken ++ (s.taken? move).toList)
      (arrived ++ move.arrival?.toList) := by
  cases move with
  | round branch =>
    rw [show (Move.round branch).arrival?.toList = [] from rfl, List.append_nil]
    show (s.round branch).Stands session _ arrived
    cases houtcome : s.outcome with
    | some outcome =>
      -- A service that has ended takes no orders.
      have hnone : s.taken? (.round branch) = none := by
        cases branch with
        | read => simp only [taken?, houtcome]
        | write => rfl
      rw [(round_of_ended houtcome branch).1, hnone, Option.toList_none, List.append_nil]
      exact h
    | none =>
      cases branch with
      | read =>
        rw [show s.round .read = s.read by simp only [Service.round, houtcome]]
        exact h.read houtcome
      | write =>
        rw [show s.round .write = s.write by simp only [Service.round, houtcome],
          show (s.taken? (.round .write)).toList = [] from rfl, List.append_nil]
        exact h.write houtcome
  | arrive arrival =>
    rw [show (s.taken? (.arrive arrival)).toList = [] from rfl, List.append_nil]
    exact h.arrive arrival
  | failWrites text =>
    rw [show (s.taken? (.failWrites text)).toList = [] from rfl, List.append_nil,
      show (Move.failWrites text).arrival?.toList = [] from rfl, List.append_nil]
    exact h.failWrites text
  | _ => cases hown

end Service

/-! ### The trial -/

/-- Whether a turn is one of a trial that nobody else has a part in. -/
def Turn.isOwn : Turn → Bool
  | .serve move => move.isOwn
  | .join | .notice => true

/-- What arrives with a turn. -/
def Turn.arrival? : Turn → Option Arrival
  | .serve move => move.arrival?
  | .join | .notice => none

namespace Trial

/-- The order that a turn dispatches to the channel. A run that has ended dispatches none. -/
def taken? (p : Trial) : Turn → Option ServerOrder
  | .serve move => if p.result.isNone then p.service.taken? move else none
  | .join | .notice => none

/-- The orders that are dispatched in a run before it ends. -/
def dispatched (p : Trial) : List Turn → List ServerOrder
  | [] => []
  | turn :: turns => (p.taken? turn).toList ++ (p.step turn).dispatched turns

/-- What a trial has come to that dispatched these orders, when all this has arrived. -/
inductive Stands (session : Session) (taken : List ServerOrder) (arrived : List Arrival)
    (p : Trial) : Prop where
  | going : p.result = none → p.service.Stands session taken arrived →
      Stands session taken arrived p
  | failed {cause : Error} {left : Bytes} {more : List Arrival} :
      p.result = some (.error cause) → p.service.outcome = some (.error cause) →
      Leaves arrived taken left more → Stands session taken arrived p
  | concluded {left : Bytes} {more : List Arrival} :
      p.result = some (.ok (.ofAborts (session.failures taken))) →
      Leaves arrived taken left more →
      (session.failures taken = [] → left = [] ∧ ∃ later, more = .ended :: later) →
      Stands session taken arrived p

variable {p : Trial} {session : Session} {taken : List ServerOrder} {arrived : List Arrival}

/-- The trial looks how the service ended. -/
theorem Stands.join (h : p.service.Stands session taken arrived) (hgoing : p.result = none) :
    (p.step .join).Stands session taken arrived := by
  cases houtcome : p.service.outcome with
  | none =>
    rw [show p.step .join = p by simp only [step, hgoing, houtcome]]
    exact .going hgoing h
  | some outcome =>
    cases h with
    | going hattends =>
      rw [hattends.outcome_eq] at houtcome
      cases houtcome
    | ended hended haborts hleaves hok =>
      rw [houtcome] at hended
      cases hended
      cases outcome with
      | error cause =>
        rw [show p.step .join = { p with result := some (.error cause) } by
          simp only [step, hgoing, houtcome]]
        exact .failed rfl houtcome hleaves
      -- A good end means that the stream had ended, which is what the run reports.
      | ok value =>
        rw [show p.step .join = p.conclude by simp only [step, hgoing, houtcome]]
        refine .concluded ?_ hleaves fun _ => hok rfl
        show some (Except.ok (Outcome.ofAborts p.service.aborts)) = _
        rw [haborts]

/-- The trial notices that the session was ended. -/
theorem Stands.notice (h : p.service.Stands session taken arrived) (hgoing : p.result = none) :
    (p.step .notice).Stands session taken arrived := by
  cases hempty : p.service.aborts with
  | nil =>
    rw [show p.step .notice = p by simp [step, hgoing, hempty]]
    exact .going hgoing h
  | cons abort aborts =>
    rcases h.exists_leaves with ⟨left, more, hleaves⟩
    rw [show p.step .notice = p.conclude by simp [step, hgoing, hempty]]
    refine .concluded ?_ hleaves fun hnone => ?_
    · show some (Except.ok (Outcome.ofAborts p.service.aborts)) = _
      rw [h.aborts_eq]
    · rw [← h.aborts_eq, hempty] at hnone
      cases hnone

/-- More may arrive when the run is over, but nothing comes of it. -/
theorem Stands.late (h : p.Stands session taken arrived) {outcome : Except Error Outcome}
    (hresult : p.result = some outcome) (arrival : Arrival) :
    p.Stands session taken (arrived ++ [arrival]) := by
  cases h with
  | going hgoing =>
    rw [hresult] at hgoing
    cases hgoing
  | failed hfailed houtcome hleaves => exact .failed hfailed houtcome (hleaves.arrive arrival)
  | concluded hconcluded hleaves hok =>
    refine .concluded hconcluded (hleaves.arrive arrival) fun hnone => ?_
    rcases hok hnone with ⟨hleft, later, rfl⟩
    exact ⟨hleft, later ++ [arrival], rfl⟩

/-- Each turn of a trial of its own keeps the account. -/
theorem Stands.step (h : p.Stands session taken arrived) {turn : Turn}
    (hown : turn.isOwn = true) :
    (p.step turn).Stands session (taken ++ (p.taken? turn).toList)
      (arrived ++ turn.arrival?.toList) := by
  cases hresult : p.result with
  | some outcome =>
    -- A run that is over goes on collecting what arrives, and nothing else.
    have htaken : p.taken? turn = none := by
      cases turn with
      | serve move => simp [taken?, hresult]
      | _ => rfl
    rw [show p.step turn = p by simp only [Trial.step, hresult], htaken, Option.toList_none,
      List.append_nil]
    cases turn.arrival? with
    | none => simpa using h
    | some arrival => exact h.late hresult arrival
  | none =>
    cases h with
    | failed hfailed =>
      rw [hresult] at hfailed
      cases hfailed
    | concluded hconcluded =>
      rw [hresult] at hconcluded
      cases hconcluded
    | going _ hservice =>
      cases turn with
      | serve move =>
        rw [show p.taken? (.serve move) = p.service.taken? move by simp [taken?, hresult],
          show p.step (.serve move) = { p with service := (p.service.step move).1 } by
            simp only [Trial.step, hresult]]
        exact .going hresult (hservice.step hown)
      | join =>
        rw [show (p.taken? .join).toList = [] from rfl,
          show Turn.join.arrival?.toList = [] from rfl, List.append_nil, List.append_nil]
        exact .join hservice hresult
      | notice =>
        rw [show (p.taken? .notice).toList = [] from rfl,
          show Turn.notice.arrival?.toList = [] from rfl, List.append_nil, List.append_nil]
        exact .notice hservice hresult

/-- A run of a trial of its own keeps the account. -/
theorem stands_run (h : p.Stands session taken arrived) (turns : List Turn)
    (hown : ∀ turn ∈ turns, turn.isOwn = true) :
    (p.run turns).Stands session (taken ++ p.dispatched turns)
      (arrived ++ turns.filterMap Turn.arrival?) := by
  induction turns generalizing p taken arrived with
  | nil => simpa [dispatched, run] using h
  | cons turn turns ih =>
    have hlater := ih (h.step (hown turn List.mem_cons_self)) fun other hother =>
      hown other (List.mem_cons_of_mem _ hother)
    rw [List.append_assoc, List.append_assoc] at hlater
    rw [List.filterMap_eq_flatMap_toList] at hlater ⊢
    exact hlater

/-- A trial that has just begun. -/
theorem stands_start (settings : Settings) :
    (Trial.start settings).Stands ⟨0, settings⟩ [] [] := by
  have hattends : (Trial.start settings).service.Attends ⟨0, settings⟩ .awaitingHandshake :=
    ⟨⟨rfl, rfl⟩, rfl, rfl, rfl, rfl⟩
  exact .going rfl (.going hattends rfl ⟨[], rfl, .nothing⟩)

/-- The orders that a trial dispatched were taken off what has arrived. -/
theorem Stands.exists_leaves (h : p.Stands session taken arrived) :
    ∃ left more, Leaves arrived taken left more := by
  cases h with
  | going _ hservice => exact hservice.exists_leaves
  | failed _ _ hleaves => exact ⟨_, _, hleaves⟩
  | concluded _ hleaves => exact ⟨_, _, hleaves⟩

/-- A run that fails does so because its service failed. -/
theorem Stands.outcome_eq (h : p.Stands session taken arrived) {cause : Error}
    (hresult : p.result = some (.error cause)) : p.service.outcome = some (.error cause) := by
  cases h with
  | going hgoing =>
    rw [hresult] at hgoing
    cases hgoing
  | failed hfailed houtcome =>
    rw [hresult] at hfailed
    cases hfailed
    exact houtcome
  | concluded hconcluded =>
    rw [hresult] at hconcluded
    cases hconcluded

/-- What an outcome says of the orders, and what a run without an aborted session has seen. -/
theorem Stands.outcome_cases (h : p.Stands session taken arrived) {outcome : Outcome}
    (hresult : p.result = some (.ok outcome)) :
    outcome = (if taken.any (·.isFailure) then .aborted .peerUnavailable launchFailedMessage
      else .completed) ∧
    (outcome = .completed → ∃ (pieces : List Bytes) (later : List Arrival),
      arrived = pieces.map Arrival.octets ++ .ended :: later ∧
      transcript pieces.flatten = ⟨taken, .ok ()⟩) := by
  cases h with
  | going hgoing =>
    rw [hresult] at hgoing
    cases hgoing
  | failed hfailed =>
    rw [hresult] at hfailed
    cases hfailed
  | concluded hconcluded hleaves hended =>
    rw [hresult] at hconcluded
    cases hconcluded
    rw [Outcome.ofAborts_failures]
    refine ⟨rfl, fun hcompleted => ?_⟩
    -- The session is not ended only if no report of failure was taken.
    have hnone : taken.any (·.isFailure) = false := by
      cases hany : taken.any (·.isFailure) with
      | false => rfl
      | true =>
        rw [hany] at hcompleted
        cases hcompleted
    rcases hended ((session.failures_eq_nil_iff taken).mpr hnone) with ⟨rfl, later, rfl⟩
    rcases hleaves with ⟨pieces, harrived, htaken⟩
    exact ⟨pieces, later, harrived, htaken.transcript_eq⟩

end Trial

end RemotePrograms
