import RemotePrograms.Proofs.Order.Slices

/-!
# `RemotePrograms.Proofs.Order.HeaderChecks`: whoever cuts a stream and whoever reads an order agree

The length in a header is checked twice. `nextOrder` checks it to find the end of the order, and
`ServerOrder.decode` checks it again in what was taken off the stream. The two must not differ by
one octet, or an order is cut off in the wrong place, or a stream that only has to be waited for is
given up.

Here both of them look at the same octets, a stream from which nothing was taken off yet. Each
answer of `nextOrder` is compared with what the reader makes of the whole stream,
`decode_of_waiting`, `decode_of_broken` and `decode_of_order`. `afterOrders?` takes several orders
off. Since an order has at least a header, this comes to an end, and `length_afterOrders` says how
soon.
-/

set_option autoImplicit false

namespace RemotePrograms

/-! ### One answer at a time -/

section Answers

variable {stream : Bytes}

/-- Whoever waits would read that octets are missing. -/
theorem decode_of_waiting (h : nextOrder stream = .waiting) :
    ∃ what needed available, (what = "order header" ∨ what = "order body") ∧
      ServerOrder.decode stream = .error (.truncated what needed available) := by
  obtain hshort | ⟨type, length, hannounces, hfour, hless⟩ := isIncomplete_of_nextOrder h
  · exact ⟨_, _, _, .inl rfl, (Fault.header hshort).decode_eq⟩
  · exact ⟨_, _, _, .inr rfl, (Fault.body hannounces hfour hless).decode_eq⟩

/-- A stream that cannot be cut is refused by the reader for the same reason. -/
theorem decode_of_broken {cause : Error} (h : nextOrder stream = .broken cause) :
    ∃ length, cause = .badLength length ∧
      ServerOrder.decode stream = .error (.badLength length) := by
  obtain ⟨length, hannounced, hsmall, rfl⟩ := nextOrder_eq_broken h
  obtain ⟨type, hannounces⟩ := (announcedLength?_eq_some_iff stream length).mp hannounced
  exact ⟨length, rfl, (Fault.length hannounces hsmall).decode_eq⟩

/-- What is read in the octets that were taken off is what would be read in the whole stream, and
it is no fault in the header. -/
theorem decode_of_order {outcome : Except Error ServerOrder} {rest : Bytes}
    (h : nextOrder stream = .order outcome rest) :
    outcome = ServerOrder.decode stream ∧
      ∀ cause, outcome = .error cause → ¬cause.IsHeaderFault := by
  obtain ⟨slice, rfl, ⟨type, hwhole⟩, rfl⟩ := isSlice_of_nextOrder h
  refine ⟨?_, fun cause hcause => hwhole.not_isHeaderFault hcause⟩
  exact (hwhole.announces.decode_append (Nat.le_refl _) rest).symm

/-- An order is taken off exactly if the reader finds no fault in the header. -/
theorem exists_order_iff :
    (∃ outcome rest, nextOrder stream = .order outcome rest) ↔
      ∀ cause, ServerOrder.decode stream = .error cause → ¬cause.IsHeaderFault := by
  constructor
  · rintro ⟨outcome, rest, h⟩
    obtain ⟨rfl, hfault⟩ := decode_of_order h
    exact hfault
  · intro hfault
    cases h : nextOrder stream with
    | waiting =>
      obtain ⟨what, needed, available, hwhat, hdecode⟩ := decode_of_waiting h
      exact absurd hwhat (hfault _ hdecode)
    | broken cause =>
      obtain ⟨length, -, hdecode⟩ := decode_of_broken h
      exact absurd trivial (hfault _ hdecode)
    | order outcome rest => exact ⟨outcome, rest, rfl⟩

/-- The reader finds a fault in the header, and no order is taken off. -/
theorem rest_of_isHeaderFault {cause : Error} (hdecode : ServerOrder.decode stream = .error cause)
    (hfault : cause.IsHeaderFault) : (nextOrder stream).rest stream = stream := by
  cases h : nextOrder stream with
  | waiting => rfl
  | broken cause => rfl
  | order outcome rest => exact absurd hfault (exists_order_iff.mp ⟨outcome, rest, h⟩ cause hdecode)

/-- The reader of a stream waits if and only if the header or the body is not all there. -/
theorem outcome_eq_none_iff :
    (nextOrder stream).outcome = .ok none ↔
      ∃ what needed available, (what = "order header" ∨ what = "order body") ∧
        ServerOrder.decode stream = .error (.truncated what needed available) := by
  cases h : nextOrder stream with
  | waiting => exact ⟨fun _ => decode_of_waiting h, fun _ => rfl⟩
  | broken cause =>
    obtain ⟨length, rfl, hdecode⟩ := decode_of_broken h
    rw [hdecode]
    simp [Framed.outcome]
  | order outcome rest =>
    have hfault := exists_order_iff.mp ⟨outcome, rest, h⟩
    constructor
    · intro hnone
      cases outcome <;> simp [Framed.outcome, Except.map] at hnone
    · rintro ⟨what, needed, available, hwhat, hdecode⟩
      exact absurd hwhat (hfault _ hdecode)

/-- Both readers call the same lengths impossible. -/
theorem outcome_eq_badLength_iff (length : Nat) :
    (nextOrder stream).outcome = .error (.badLength length) ↔
      ServerOrder.decode stream = .error (.badLength length) := by
  cases h : nextOrder stream with
  | waiting =>
    obtain ⟨what, needed, available, -, hdecode⟩ := decode_of_waiting h
    rw [hdecode]
    simp [Framed.outcome]
  | broken cause =>
    obtain ⟨length', rfl, hdecode⟩ := decode_of_broken h
    rw [hdecode]
    simp [Framed.outcome]
  | order outcome rest =>
    obtain ⟨rfl, -⟩ := decode_of_order h
    cases hdecode : ServerOrder.decode stream <;> simp [Framed.outcome, Except.map]

end Answers

/-! ### Several orders -/

/-- What is left of a stream when this many orders were taken off it, malformed ones too, if there
are as many. -/
def afterOrders? : Nat → Bytes → Option Bytes
  | 0, stream => some stream
  | n + 1, stream =>
    match nextOrder stream with
    | .order _ rest => afterOrders? n rest
    | _ => none

/-- Each order that is taken off is at least as long as a header. -/
theorem length_afterOrders {n : Nat} {stream rest : Bytes}
    (h : afterOrders? n stream = some rest) : 4 * n + rest.length ≤ stream.length := by
  induction n generalizing stream with
  | zero =>
    cases h
    omega
  | succ n ih =>
    rw [afterOrders?] at h
    split at h
    · rename_i outcome later hnext
      have hlater := length_rest_of_nextOrder hnext
      have hrest := ih h
      rw [headerSize] at hlater
      omega
    · cases h

/-- As many orders as slices are taken off them, and what stands behind the slices is left. -/
theorem afterOrders?_flatten_append {slices : List Bytes} (h : ∀ slice ∈ slices, IsSlice slice)
    (tail : Bytes) : afterOrders? slices.length (slices.flatten ++ tail) = some tail := by
  induction slices with
  | nil => rfl
  | cons slice slices ih =>
    obtain ⟨hslice, hslices⟩ := List.forall_mem_cons.mp h
    rw [List.flatten_cons, List.append_assoc, List.length_cons, afterOrders?,
      hslice.nextOrder_append]
    exact ih hslices

/-- A stream comes to a point at which more octets are needed or a length is impossible. -/
theorem exists_afterOrders (stream : Bytes) :
    ∃ n rest, afterOrders? n stream = some rest ∧
      ((nextOrder rest).outcome = .ok none ∨
        ∃ length, (nextOrder rest).outcome = .error (.badLength length)) := by
  obtain ⟨slices, tail, rfl, hslices, htail⟩ := exists_slices stream
  refine ⟨slices.length, tail, afterOrders?_flatten_append hslices tail, ?_⟩
  obtain htail | ⟨type, length, hannounces, hless⟩ := htail
  · rw [htail.nextOrder_eq]
    exact .inl rfl
  · rw [hannounces.nextOrder_eq hless]
    exact .inr ⟨length, rfl⟩

/-! ### The property -/

/-- Taking an order off a stream agrees with reading the whole stream. Octets are waited for exactly
if the reader finds the header or the body cut off, and a length is impossible to the one exactly if
it is to the other. In both cases the stream stays as it is. In any other case the order or the
fault is what the reader finds, and as many octets are taken off as the header announces, no fewer
than a header has. So the reader is never handed a fault in the header, and after a quarter as many
orders as there were octets, or sooner, nothing more can be taken off. -/
theorem nextOrder_agrees (stream : Bytes) :
    ((nextOrder stream).outcome = .ok none ↔
      ∃ what needed available, (what = "order header" ∨ what = "order body") ∧
        ServerOrder.decode stream = .error (.truncated what needed available)) ∧
    (∀ length, (nextOrder stream).outcome = .error (.badLength length) ↔
      ServerOrder.decode stream = .error (.badLength length)) ∧
    (∀ cause, ServerOrder.decode stream = .error cause → cause.IsHeaderFault →
      (nextOrder stream).rest stream = stream) ∧
    ((∀ cause, ServerOrder.decode stream = .error cause → ¬cause.IsHeaderFault) →
      (nextOrder stream).outcome = (ServerOrder.decode stream).map some ∧
      ∃ length, announcedLength? stream = some length ∧ 4 ≤ length ∧ length ≤ stream.length ∧
        (nextOrder stream).rest stream = stream.drop length) ∧
    (∀ outcome rest, nextOrder stream = .order outcome rest →
      ∃ length, announcedLength? stream = some length ∧
        outcome = ServerOrder.decode (stream.take length) ∧
        ∀ cause, outcome = .error cause → ¬cause.IsHeaderFault) ∧
    (∀ n rest, afterOrders? n stream = some rest → n ≤ stream.length / 4) ∧
    ∃ n rest, afterOrders? n stream = some rest ∧
      ((nextOrder rest).outcome = .ok none ∨
        ∃ length, (nextOrder rest).outcome = .error (.badLength length)) := by
  refine ⟨outcome_eq_none_iff, outcome_eq_badLength_iff, fun cause => rest_of_isHeaderFault, ?_, ?_,
    ?_, exists_afterOrders stream⟩
  · intro hfault
    obtain ⟨outcome, rest, h⟩ := exists_order_iff.mpr hfault
    obtain ⟨hdecode, -⟩ := decode_of_order h
    obtain ⟨length, hannounced, hfour, hlength, -, rfl⟩ := nextOrder_eq_order h
    rw [h, ← hdecode]
    exact ⟨rfl, length, hannounced, hfour, hlength, rfl⟩
  · intro outcome rest h
    obtain ⟨length, hannounced, -, -, houtcome, -⟩ := nextOrder_eq_order h
    exact ⟨length, hannounced, houtcome, (decode_of_order h).2⟩
  · -- Each order takes at least four octets off.
    intro n rest h
    have := length_afterOrders h
    omega

/-- A handshake whose length leaves no room for its only field, and an octet behind it. -/
def shortHandshake : Bytes := [5, 0, 6, 0, 1, 2, 5]

/-- The fault is in the body, so the handshake is taken off all the same. -/
theorem nextOrder_agrees_shortHandshake :
    (∀ cause, ServerOrder.decode shortHandshake = .error cause → ¬cause.IsHeaderFault) ∧
      (nextOrder shortHandshake).outcome = .error (.truncated "handshake" 4 2) ∧
      (nextOrder shortHandshake).rest shortHandshake = [5] ∧
      ∀ n rest, afterOrders? n shortHandshake = some rest → n ≤ 1 := by
  have hdecode : ServerOrder.decode shortHandshake = .error (.truncated "handshake" 4 2) := rfl
  have hfault : ∀ cause, ServerOrder.decode shortHandshake = .error cause →
      ¬cause.IsHeaderFault := by
    intro cause hcause
    rw [hdecode] at hcause
    cases hcause
    simp [Error.IsHeaderFault]
  obtain ⟨-, -, -, htaken, -, hbound, -⟩ := nextOrder_agrees shortHandshake
  obtain ⟨houtcome, length, hannounced, -, -, hrest⟩ := htaken hfault
  cases hannounced
  exact ⟨hfault, houtcome, hrest, hbound⟩

end RemotePrograms
