import RemotePrograms.Order.Framing

/-!
# `RemotePrograms.Proofs.Order.Transcript`: what a whole stream says

`transcript` reads a stream that has ended from its first octet to its last, or to its first
fault: these are its orders, and this is how it ends. It takes one order at a time off the front,
as `nextOrder` does, and `nextOrder_append` is the reason why nothing else is needed to speak of
a stream that arrives in pieces. What was taken off the front does not depend on what comes
behind it.
-/

set_option autoImplicit false

namespace RemotePrograms

/-! ### One order -/

/-- The three things that the octets at the start of a stream can be. -/
theorem nextOrder_cases (stream : Bytes) :
    (nextOrder stream = .waiting ∧
      (announcedLength? stream = none ∨
        ∃ length, announcedLength? stream = some length ∧ stream.length < length)) ∨
    (∃ length, announcedLength? stream = some length ∧ length < headerSize ∧
      nextOrder stream = .broken (.badLength length)) ∨
    ∃ length, announcedLength? stream = some length ∧ headerSize ≤ length ∧
      length ≤ stream.length ∧
      nextOrder stream
        = .order (ServerOrder.decode (stream.take length)) (stream.drop length) := by
  cases hlength : announcedLength? stream with
  | none =>
    refine .inl ⟨?_, .inl rfl⟩
    simp only [nextOrder, hlength]
  | some length =>
    -- A length that is too small is noticed before the body is waited for.
    by_cases hsmall : length < headerSize
    · refine .inr (.inl ⟨length, rfl, hsmall, ?_⟩)
      simp only [nextOrder, hlength, if_pos hsmall]
    · by_cases hlong : stream.length < length
      · refine .inl ⟨?_, .inr ⟨length, rfl, hlong⟩⟩
        simp only [nextOrder, hlength, if_neg hsmall, if_pos hlong]
      · refine .inr (.inr ⟨length, rfl, Nat.le_of_not_lt hsmall, Nat.le_of_not_lt hlong, ?_⟩)
        simp only [nextOrder, hlength, if_neg hsmall, if_neg hlong]

/-- An order is read in the octets that its header announces, and those behind them are left. -/
theorem nextOrder_eq_order {stream rest : Bytes} {outcome : Except Error ServerOrder}
    (h : nextOrder stream = .order outcome rest) :
    ∃ length, announcedLength? stream = some length ∧ headerSize ≤ length ∧
      length ≤ stream.length ∧ outcome = ServerOrder.decode (stream.take length) ∧
      rest = stream.drop length := by
  obtain ⟨hwaiting, -⟩ | ⟨length, -, -, hbroken⟩ | ⟨length, hannounced, hheader, hlength, horder⟩ :=
    nextOrder_cases stream
  · rw [hwaiting] at h
    cases h
  · rw [hbroken] at h
    cases h
  · rw [horder] at h
    cases h
    exact ⟨length, hannounced, hheader, hlength, rfl, rfl⟩

/-- A stream is broken by a length that leaves no room for the header. -/
theorem nextOrder_eq_broken {stream : Bytes} {cause : Error}
    (h : nextOrder stream = .broken cause) :
    ∃ length, announcedLength? stream = some length ∧ length < headerSize ∧
      cause = .badLength length := by
  obtain ⟨hwaiting, -⟩ | ⟨length, hannounced, hsmall, hbroken⟩ | ⟨length, -, -, -, horder⟩ :=
    nextOrder_cases stream
  · rw [hwaiting] at h
    cases h
  · rw [hbroken] at h
    cases h
    exact ⟨length, hannounced, hsmall, rfl⟩
  · rw [horder] at h
    cases h

/-- A header that is there does not change when more octets arrive. -/
theorem announcedLength?_append {stream : Bytes} {length : Nat}
    (h : announcedLength? stream = some length) (later : Bytes) :
    announcedLength? (stream ++ later) = some length := by
  match stream, h with
  | _ :: _ :: _ :: _ :: _, h => exact h

/-- An order that is taken off is at least as long as a header. -/
theorem length_rest_of_nextOrder {stream rest : Bytes} {outcome : Except Error ServerOrder}
    (h : nextOrder stream = .order outcome rest) : rest.length + headerSize ≤ stream.length := by
  obtain ⟨length, -, hheader, hlength, -, rfl⟩ := nextOrder_eq_order h
  rw [List.length_drop]
  omega

/-- What is taken off the front does not depend on what comes behind it. -/
theorem nextOrder_append {stream rest : Bytes} {outcome : Except Error ServerOrder}
    (h : nextOrder stream = .order outcome rest) (later : Bytes) :
    nextOrder (stream ++ later) = .order outcome (rest ++ later) := by
  obtain ⟨length, hannounced, hheader, hlength, rfl, rfl⟩ := nextOrder_eq_order h
  have hlong : ¬ (stream ++ later).length < length := by
    rw [List.length_append]
    omega
  -- The header announces the same length, and all that it announces is in the first part.
  simp only [nextOrder, announcedLength?_append hannounced, if_neg (Nat.not_lt.mpr hheader),
    if_neg hlong]
  rw [List.take_append_of_le_length hlength, List.drop_append_of_le_length hlength]

/-- A stream that cannot be cut further cannot be cut further later either. -/
theorem nextOrder_append_of_broken {stream : Bytes} {cause : Error}
    (h : nextOrder stream = .broken cause) (later : Bytes) :
    nextOrder (stream ++ later) = .broken cause := by
  obtain ⟨length, hannounced, hsmall, rfl⟩ := nextOrder_eq_broken h
  simp only [nextOrder, announcedLength?_append hannounced, if_pos hsmall]

/-! ### The whole stream -/

/-- The orders of a stream up to its first fault, and how the stream ends. -/
structure Transcript where
  orders : List ServerOrder
  ending : Except Error Unit

/-- Puts an order in front. -/
def Transcript.cons (order : ServerOrder) (t : Transcript) : Transcript :=
  { t with orders := order :: t.orders }

/-- Reads a stream that has ended. -/
def transcript (stream : Bytes) : Transcript :=
  match _h : nextOrder stream with
  | .waiting => ⟨[], if stream.isEmpty then .ok () else .error bytesRemaining⟩
  | .broken cause => ⟨[], .error cause⟩
  | .order (.error cause) _ => ⟨[], .error cause⟩
  | .order (.ok order) rest => .cons order (transcript rest)
termination_by stream.length
decreasing_by
  have hrest := length_rest_of_nextOrder _h
  rw [headerSize] at hrest
  omega

section Equations

variable {stream rest : Bytes} {cause : Error} {order : ServerOrder}

/-- A stream may end between two orders and not within one. -/
theorem transcript_of_waiting (h : nextOrder stream = .waiting) :
    transcript stream = ⟨[], if stream.isEmpty then .ok () else .error bytesRemaining⟩ := by
  rw [transcript]
  split
  · rfl
  all_goals
    rename_i hcase
    rw [h] at hcase
    cases hcase

/-- A stream ends where its header is broken. -/
theorem transcript_of_broken (h : nextOrder stream = .broken cause) :
    transcript stream = ⟨[], .error cause⟩ := by
  rw [transcript]
  split
  all_goals
    rename_i hcase
    rw [h] at hcase
    cases hcase
  rfl

/-- A stream ends at an order that cannot be read. -/
theorem transcript_of_fault (h : nextOrder stream = .order (.error cause) rest) :
    transcript stream = ⟨[], .error cause⟩ := by
  rw [transcript]
  split
  all_goals
    rename_i hcase
    rw [h] at hcase
    cases hcase
  rfl

/-- An order is read before the rest of its stream. -/
theorem transcript_of_order (h : nextOrder stream = .order (.ok order) rest) :
    transcript stream = .cons order (transcript rest) := by
  rw [transcript]
  split
  all_goals
    rename_i hcase
    rw [h] at hcase
    cases hcase
  rfl

end Equations

end RemotePrograms
