import Mathlib.Data.List.Basic
import RemotePrograms.Proofs.Stream.Trial

/-!
# `RemotePrograms.Proofs.Stream.Settling`: one schedule of many

A service may turn to either of its branches whenever both are ready. `Service.settle` fixes one
schedule: it reads for as long as it can, and only then it writes. `Service.settle_eq_run` says that
this is a run of rounds like any other, so whatever is known of all runs holds of it, and that
nothing is ready behind it, for the bounds on its rounds are large enough. `Trial.settle_eq_run`
says of a trial that it makes some turns of its own.
-/

set_option autoImplicit false

namespace RemotePrograms

namespace Inbox

/-- The size of an inbox is the octets that it holds and the sizes of what waits. -/
theorem size_eq (box : Inbox) :
    box.size = box.buffer.length + (box.arrivals.map Arrival.size).sum := by
  have hfold : ∀ (arrivals : List Arrival) (n : Nat),
      arrivals.foldl (fun n arrival => n + arrival.size) n
        = n + (arrivals.map Arrival.size).sum := by
    intro arrivals
    induction arrivals with
    | nil => exact fun n => rfl
    | cons arrival arrivals ih =>
      intro n
      rw [List.foldl_cons, ih, List.map_cons, List.sum_cons, Nat.add_assoc]
  exact hfold box.arrivals box.buffer.length

/-- Pieces count by their octets. -/
theorem sum_size_octets (pieces : List Bytes) :
    ((pieces.map Arrival.octets).map Arrival.size).sum = pieces.flatten.length := by
  rw [List.map_map, List.length_flatten]
  rfl

/-- An inbox that hands out an order gets smaller. -/
theorem size_lt_of_poll {box after : Inbox} {order : ServerOrder}
    (h : box.poll = (some (.order order), after)) : after.size < box.size := by
  have htakes := pollFrom_takes box.buffer box.arrivals
  rw [show pollFrom box.buffer box.arrivals = _ from h] at htakes
  generalize hhanded : (some (Item.order order), after) = handed at htakes
  cases htakes with
  | @order pieces later received rest harrivals hnext =>
    cases hhanded
    have hrest := length_rest_of_nextOrder hnext
    rw [List.length_append, headerSize] at hrest
    rw [size_eq, size_eq, harrivals, List.map_append, List.sum_append, sum_size_octets]
    dsimp only
    omega
  | nothing | failure | ended => cases hhanded

end Inbox

namespace Service

variable {s : Service}

/-! ### What a ready round does -/

/-- A service that has ended is not ready for anything. -/
theorem isReady_of_isSome (h : s.outcome.isSome = true) (branch : Branch) :
    s.isReady branch = false := by
  obtain ⟨outcome, houtcome⟩ := Option.isSome_iff_exists.mp h
  exact (round_of_ended houtcome branch).2

/-- A service that is ready has not ended. -/
theorem outcome_of_isReady {branch : Branch} (h : s.isReady branch = true) : s.outcome = none := by
  cases houtcome : s.outcome with
  | none => rfl
  | some outcome =>
    rw [isReady_of_isSome (by rw [houtcome]; rfl) branch] at h
    cases h

/-- A service that drains its queue has ended. -/
theorem outcome_drain (s : Service) (outcome : Except Error Unit) :
    (s.drain outcome).outcome.isSome = true := by
  obtain ⟨-, hended | ⟨text, hended⟩⟩ := s.drain_cases outcome
  · rw [hended]
    rfl
  · rw [hended]
    rfl

/-- To hand an order to the channel ends the service or leaves the inbox alone. -/
theorem handle_cases (s : Service) (order : ServerOrder) :
    (s.handle order).outcome.isSome = true ∨ (s.handle order).inbox = s.inbox := by
  unfold handle
  have hinbox : (s.perform (.dispatch s.channel order)).1.inbox = s.inbox := rfl
  generalize s.perform (.dispatch s.channel order) = performed at hinbox ⊢
  obtain ⟨after, result⟩ := performed
  cases result with
  | ok value => exact .inr hinbox
  | error cause => exact .inl (outcome_drain after (.error cause))

/-- A round of reading that had something to read ends the service or makes its inbox smaller. -/
theorem round_read_cases (h : s.isReady .read = true) :
    (s.round .read).outcome.isSome = true ∨ (s.round .read).inbox.size < s.inbox.size := by
  have houtcome := outcome_of_isReady h
  have hpoll : s.inbox.poll.1.isSome = true := by simpa [isReady, houtcome] using h
  rw [show s.round .read = s.read by simp only [round, houtcome], read]
  generalize hpolled : s.inbox.poll = polled at hpoll ⊢
  obtain ⟨item, inbox⟩ := polled
  cases item with
  | none => cases hpoll
  | some item =>
    cases item with
    | failure cause => exact .inl rfl
    | ended => exact .inl (outcome_drain _ _)
    | order order =>
      obtain hended | hinbox := ({ s with inbox } : Service).handle_cases order
      · exact .inl hended
      · exact .inr (hinbox ▸ Inbox.size_lt_of_poll hpolled)

/-- A round of writing that had something to do ends the service or makes its queue shorter. It
leaves the inbox alone. -/
theorem round_write_cases (h : s.isReady .write = true) :
    (s.round .write).outcome.isSome = true ∨
      ((s.round .write).outbox.queue.length < s.outbox.queue.length ∧
        (s.round .write).inbox = s.inbox) := by
  have houtcome := outcome_of_isReady h
  rw [show s.round .write = s.write by simp only [round, houtcome]]
  cases hqueue : s.outbox.queue with
  | nil =>
    have hsender : s.hasSender = false := by
      simpa [isReady, houtcome, hqueue] using h
    simp [write, hqueue, hsender, finish]
  | cons pdu later =>
    cases hfailure : s.writeFailure with
    | none => simp [write, hqueue, hfailure]
    | some text => simp [write, hqueue, hfailure, finish]

/-! ### Rounds of one branch -/

/-- Rounds of one branch are a run. -/
theorem exhaust_eq_run (branch : Branch) (fuel : Nat) (s : Service) :
    ∃ n, s.exhaust branch fuel = s.run (List.replicate n (.round branch)) := by
  induction fuel generalizing s with
  | zero => exact ⟨0, rfl⟩
  | succ fuel ih =>
    unfold exhaust
    split
    · obtain ⟨n, hn⟩ := ih (s.round branch)
      exact ⟨n + 1, hn⟩
    · exact ⟨0, rfl⟩

/-- A service that has ended makes no rounds. -/
theorem exhaust_of_isSome (h : s.outcome.isSome = true) (branch : Branch) (fuel : Nat) :
    s.exhaust branch fuel = s := by
  cases fuel with
  | zero => rfl
  | succ fuel => rw [exhaust, isReady_of_isSome h branch, if_neg Bool.false_ne_true]

/-- A round for each octet and arrival, and one more, is enough to read all there is. -/
theorem isReady_exhaust_read {fuel : Nat} (h : s.inbox.size < fuel) :
    (s.exhaust .read fuel).isReady .read = false := by
  induction fuel generalizing s with
  | zero => exact absurd h (Nat.not_lt_zero _)
  | succ fuel ih =>
    unfold exhaust
    split
    · rename_i hready
      obtain hended | hless := round_read_cases hready
      · rw [exhaust_of_isSome hended]
        exact isReady_of_isSome hended .read
      · exact ih (Nat.lt_of_lt_of_le hless (Nat.le_of_lt_succ h))
    · rename_i hready
      exact Bool.eq_false_iff.mpr hready

/-- A round for each PDU, and one more, is enough to write all there is. What could not be read
before cannot be read behind them. -/
theorem isReady_exhaust_write {fuel : Nat} (h : s.outbox.queue.length < fuel)
    (hread : s.isReady .read = false) (branch : Branch) :
    (s.exhaust .write fuel).isReady branch = false := by
  induction fuel generalizing s with
  | zero => exact absurd h (Nat.not_lt_zero _)
  | succ fuel ih =>
    unfold exhaust
    split
    · rename_i hready
      obtain hended | ⟨hless, hinbox⟩ := round_write_cases hready
      · rw [exhaust_of_isSome hended]
        exact isReady_of_isSome hended branch
      · refine ih (Nat.lt_of_lt_of_le hless (Nat.le_of_lt_succ h)) ?_
        -- Writing leaves the inbox alone, so there is still nothing to read.
        simp only [isReady, outcome_of_isReady hready, Option.isNone_none, Bool.true_and] at hread
        simp only [isReady, hinbox, hread, Bool.and_false]
    · rename_i hready
      cases branch with
      | read => exact hread
      | write => exact Bool.eq_false_iff.mpr hready

/-- Settling is one of the schedules that a service may have: rounds of reading and then rounds of
writing. No branch is ready behind it. -/
theorem settle_eq_run (s : Service) :
    (∃ reads writes, s.settle
      = s.run (List.replicate reads (.round .read) ++ List.replicate writes (.round .write))) ∧
    ∀ branch, s.settle.isReady branch = false := by
  refine ⟨?_, fun branch => ?_⟩
  · obtain ⟨reads, hreads⟩ := exhaust_eq_run .read (s.inbox.size + 1) s
    obtain ⟨writes, hwrites⟩ := exhaust_eq_run .write
      ((s.exhaust .read (s.inbox.size + 1)).outbox.queue.length + 1)
      (s.exhaust .read (s.inbox.size + 1))
    refine ⟨reads, writes, ?_⟩
    rw [run, List.foldl_append, ← run, ← run, ← hreads]
    exact hwrites
  · exact isReady_exhaust_write (Nat.lt_succ_self _)
      (isReady_exhaust_read (Nat.lt_succ_self _)) branch

end Service

namespace Trial

variable {p : Trial}

/-- While a trial goes on, what happens to its service happens in turns. -/
theorem run_serve (hgoing : p.result = none) (moves : List Service.Move) :
    p.run (moves.map .serve) = { p with service := p.service.run moves } := by
  induction moves generalizing p with
  | nil => rfl
  | cons move moves ih =>
    have hstep : p.step (.serve move) = { p with service := (p.service.step move).1 } := by
      simp only [step, hgoing]
    show (p.step (.serve move)).run (moves.map .serve) = _
    rw [hstep]
    exact ih hgoing

/-- Settling a trial is a run of turns of its own. -/
theorem settle_eq_run (p : Trial) :
    ∃ turns : List Turn, (∀ turn ∈ turns, turn.isOwn = true) ∧ p.settle = p.run turns := by
  cases hresult : p.result with
  | some outcome => exact ⟨[], by simp, by simp only [settle, hresult]; rfl⟩
  | none =>
    obtain ⟨⟨reads, writes, hsettle⟩, -⟩ := p.service.settle_eq_run
    have hrounds : ∀ move ∈ List.replicate reads (Service.Move.round .read)
        ++ List.replicate writes (.round .write), move.isOwn = true := by
      intro move hmove
      obtain hmove | hmove := List.mem_append.mp hmove
      · rw [List.eq_of_mem_replicate hmove]
        rfl
      · rw [List.eq_of_mem_replicate hmove]
        rfl
    generalize List.replicate reads _ ++ List.replicate writes _ = rounds at hsettle hrounds
    -- Behind the rounds the trial looks how the service ended, and then at the session.
    refine ⟨rounds.map .serve ++ [.join, .notice], fun turn hturn => ?_, ?_⟩
    · obtain hturn | hturn := List.mem_append.mp hturn
      · obtain ⟨move, hmove, rfl⟩ := List.mem_map.mp hturn
        exact hrounds move hmove
      · obtain rfl | rfl := List.mem_pair.mp hturn
        · rfl
        · rfl
    · have hrun : p.run (rounds.map .serve ++ [.join, .notice])
          = ((p.run (rounds.map .serve)).step .join).step .notice := List.foldl_append
      rw [hrun, run_serve hresult, ← hsettle]
      simp only [settle, hresult]

end Trial

end RemotePrograms
