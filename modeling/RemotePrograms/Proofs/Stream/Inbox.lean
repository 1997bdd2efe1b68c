import RemotePrograms.Proofs.Order.Transcript
import RemotePrograms.Stream.Inbox

/-!
# `RemotePrograms.Proofs.Stream.Inbox`: an inbox and the stream behind it

An inbox sees a stream in pieces, some of which have not arrived yet. `Inbox.Carries` forgets the
pieces: what is in the buffer, what has arrived and what is still to come make up one stream, and
`poll_polls` says what the inbox hands out in terms of that stream alone.
-/

set_option autoImplicit false

namespace RemotePrograms

namespace Inbox

/-- With these arrivals still to come, the inbox has this much left of a stream that ends. -/
def Carries (box : Inbox) (future : List Arrival) (stream : Bytes) : Prop :=
  ∃ pieces : List Bytes, box.arrivals ++ future = pieces.map .octets ++ [.ended] ∧
    box.buffer ++ pieces.flatten = stream

/-- What was to come and has arrived is still part of what the inbox has left. -/
theorem Carries.arrive {box : Inbox} {arrival : Arrival} {future : List Arrival} {stream : Bytes}
    (h : box.Carries (arrival :: future) stream) :
    (box.arrive arrival).Carries future stream := by
  obtain ⟨pieces, harrivals, hstream⟩ := h
  refine ⟨pieces, ?_, hstream⟩
  show (box.arrivals ++ [arrival]) ++ future = _
  rw [List.append_assoc]
  exact harrivals

/-- What an inbox hands out while it has some of a stream left. -/
inductive Polls (future : List Arrival) (stream : Bytes) : Option Item × Inbox → Prop where
  /-- More has to arrive. -/
  | nothing {box : Inbox} : future ≠ [] → box.Carries future stream →
      Polls future stream (none, box)
  | order {order : ServerOrder} {rest : Bytes} {box : Inbox} :
      nextOrder stream = .order (.ok order) rest → box.Carries future rest →
      Polls future stream (some (.order order), box)
  | failure {cause : Error} {box : Inbox} : transcript stream = ⟨[], .error cause⟩ →
      Polls future stream (some (.failure cause), box)
  | ended {box : Inbox} : transcript stream = ⟨[], .ok ()⟩ →
      Polls future stream (some .ended, box)

/-- When the buffer holds an order or a fault already, nothing more is read. -/
private theorem polls_of_buffer {arrivals future : List Arrival} {buffer : Bytes}
    {pieces : List Bytes} (h : arrivals ++ future = pieces.map .octets ++ [.ended])
    (hnext : nextOrder buffer ≠ .waiting) :
    Polls future (buffer ++ pieces.flatten) (pollFrom buffer arrivals) := by
  -- What is taken off the buffer is taken off the whole stream.
  unfold pollFrom
  cases hcase : nextOrder buffer with
  | order outcome rest =>
    cases outcome with
    | ok order => exact .order (nextOrder_append hcase _) ⟨pieces, h, rfl⟩
    | error cause => exact .failure (transcript_of_fault (nextOrder_append hcase _))
  | broken cause => exact .failure (transcript_of_broken (nextOrder_append_of_broken hcase _))
  | waiting => exact absurd hcase hnext

/-- Reading on from any buffer. -/
private theorem pollFrom_polls (arrivals future : List Arrival) (buffer : Bytes)
    (pieces : List Bytes) (h : arrivals ++ future = pieces.map .octets ++ [.ended]) :
    Polls future (buffer ++ pieces.flatten) (pollFrom buffer arrivals) := by
  induction arrivals generalizing buffer pieces with
  | nil =>
    by_cases hnext : nextOrder buffer = .waiting
    · unfold pollFrom
      rw [hnext]
      -- The end is still to come, for it has not arrived.
      refine .nothing (fun hnil => ?_) ⟨pieces, h, rfl⟩
      rw [hnil] at h
      exact absurd h.symm (by simp)
    · exact polls_of_buffer h hnext
  | cons arrival arrivals ih =>
    by_cases hnext : nextOrder buffer = .waiting
    · unfold pollFrom
      rw [hnext]
      -- The first arrival is the first piece, or the end behind no piece at all.
      cases pieces with
      | nil =>
        obtain ⟨rfl, -⟩ := List.cons.inj h
        rw [List.flatten_nil, List.append_nil]
        have htranscript := transcript_of_waiting hnext
        cases hempty : buffer.isEmpty with
        | true =>
          rw [hempty, if_pos rfl] at htranscript
          exact .ended htranscript
        | false =>
          rw [hempty, if_neg (by simp)] at htranscript
          exact .failure htranscript
      | cons piece pieces =>
        obtain ⟨rfl, hlater⟩ := List.cons.inj h
        rw [List.flatten_cons, ← List.append_assoc]
        exact ih (buffer ++ piece) pieces hlater
    · exact polls_of_buffer h hnext

/-- What an inbox hands out depends on the stream and not on how it is cut. -/
theorem poll_polls {box : Inbox} {future : List Arrival} {stream : Bytes}
    (h : box.Carries future stream) : Polls future stream box.poll := by
  obtain ⟨pieces, harrivals, rfl⟩ := h
  exact pollFrom_polls box.arrivals future box.buffer pieces harrivals

/-! ### Whatever arrives -/

/-- What an inbox that holds these octets hands out while these arrivals wait to be read. It reads
pieces off the front of them until there is an order. -/
inductive Takes (buffer : Bytes) (arrivals : List Arrival) : Option Item × Inbox → Prop where
  | nothing {pieces : List Bytes} : arrivals = pieces.map .octets →
      Takes buffer arrivals (none, ⟨buffer ++ pieces.flatten, []⟩)
  | order {pieces : List Bytes} {later : List Arrival} {order : ServerOrder} {rest : Bytes} :
      arrivals = pieces.map .octets ++ later →
      nextOrder (buffer ++ pieces.flatten) = .order (.ok order) rest →
      Takes buffer arrivals (some (.order order), ⟨rest, later⟩)
  | failure {cause : Error} {box : Inbox} : Takes buffer arrivals (some (.failure cause), box)
  /-- The stream ends, and no octet is left over. -/
  | ended {pieces : List Bytes} {later : List Arrival} {box : Inbox} :
      arrivals = pieces.map .octets ++ .ended :: later → buffer ++ pieces.flatten = [] →
      Takes buffer arrivals (some .ended, box)

/-- One more piece was read before. -/
theorem Takes.octets {buffer piece : Bytes} {arrivals : List Arrival}
    {handed : Option Item × Inbox} (h : Takes (buffer ++ piece) arrivals handed) :
    Takes buffer (.octets piece :: arrivals) handed := by
  cases h with
  | @nothing pieces harrivals =>
    have hnothing : Takes buffer (.octets piece :: arrivals)
        (none, ⟨buffer ++ (piece :: pieces).flatten, []⟩) := .nothing (by rw [harrivals]; rfl)
    rw [List.flatten_cons, ← List.append_assoc] at hnothing
    exact hnothing
  | @order pieces later order rest harrivals hnext =>
    refine @Takes.order _ _ (piece :: pieces) _ _ _ (by rw [harrivals]; rfl) ?_
    rw [List.flatten_cons, ← List.append_assoc]
    exact hnext
  | failure => exact .failure
  | @ended pieces later box harrivals hempty =>
    refine @Takes.ended _ _ (piece :: pieces) _ _ (by rw [harrivals]; rfl) ?_
    rw [List.flatten_cons, ← List.append_assoc]
    exact hempty

/-- Whatever arrives, an inbox hands out the first thing that its octets and the pieces behind them
spell, or it waits with all of them in its buffer. -/
theorem pollFrom_takes (buffer : Bytes) (arrivals : List Arrival) :
    Takes buffer arrivals (pollFrom buffer arrivals) := by
  induction arrivals generalizing buffer with
  | nil =>
    unfold pollFrom
    cases hnext : nextOrder buffer with
    | order outcome rest =>
      cases outcome with
      | ok order => exact @Takes.order _ _ [] _ _ _ rfl (by simpa using hnext)
      | error cause => exact .failure
    | broken cause => exact .failure
    -- Nothing has arrived, so the octets stay in the buffer.
    | waiting =>
      have hnothing : Takes buffer [] (none, ⟨buffer ++ ([] : List Bytes).flatten, []⟩) :=
        .nothing rfl
      rw [List.flatten_nil, List.append_nil] at hnothing
      exact hnothing
  | cons arrival arrivals ih =>
    unfold pollFrom
    cases hnext : nextOrder buffer with
    | order outcome rest =>
      cases outcome with
      | ok order => exact @Takes.order _ _ [] _ _ _ rfl (by simpa using hnext)
      | error cause => exact .failure
    | broken cause => exact .failure
    | waiting =>
      cases arrival with
      -- The piece goes behind the buffer, and the inbox tries again.
      | octets piece => exact (ih (buffer ++ piece)).octets
      | failure text => exact .failure
      | ended =>
        -- The stream may end between two orders and not within one.
        cases hempty : buffer.isEmpty with
        | true =>
          refine @Takes.ended _ _ [] _ _ rfl ?_
          rw [List.flatten_nil, List.append_nil]
          exact List.isEmpty_iff.mp hempty
        | false => exact .failure

end Inbox

end RemotePrograms
