import RemotePrograms.Proofs.Order.Grammar
import RemotePrograms.Proofs.Order.Transcript

/-!
# `RemotePrograms.Proofs.Order.Slices`: a stream falls into slices, however it arrives

Whoever reads a stream keeps the octets that no order has taken up, puts the next piece behind
them, and takes orders off the front until more is needed. `Cutting` is what such a reader has to
show for it, and `Cutting.feed` is what one more piece does to it. A fault in a body is handed out
like an order, and the reading goes on behind it. A length that is less than a header is handed
out as well, but nothing can be taken off after it.

`feed_cutAll` says that a piece can just as well be put behind the stream before any of it is
read, so the borders of the pieces mean nothing. What comes out is a matter of the stream alone:
its slices, each as long as it announces, and a tail that is none.
-/

set_option autoImplicit false

namespace RemotePrograms

/-! ### Slices -/

/-- One order with nothing behind it: its header announces its own size. -/
def IsSlice (octets : Bytes) : Prop :=
  ∃ type, IsWhole octets type octets.length

/-- The beginning of an order: a part of a header, or less than the header announces. -/
def IsIncomplete (octets : Bytes) : Prop :=
  octets.length < 4 ∨
    ∃ type length, Announces octets type length ∧ 4 ≤ length ∧ octets.length < length

/-- The length that is looked up is the one that the octets announce. -/
theorem announcedLength?_eq_some_iff (octets : Bytes) (length : Nat) :
    announcedLength? octets = some length ↔ ∃ type, Announces octets type length := by
  rw [announcedLength?, Option.map_eq_some_iff]
  constructor
  · rintro ⟨⟨type, _⟩, hheader, rfl⟩
    exact ⟨type, (header?_eq_some_iff octets type _).mp hheader⟩
  · rintro ⟨type, hannounces⟩
    exact ⟨(type, length), (header?_eq_some_iff octets type length).mpr hannounces, rfl⟩

/-- A header is all there exactly in four octets and more. -/
theorem announcedLength?_eq_none_iff (octets : Bytes) :
    announcedLength? octets = none ↔ octets.length < 4 := by
  constructor
  · intro hnone
    cases Nat.lt_or_ge octets.length 4 with
    | inl hshort => exact hshort
    | inr hlong =>
      obtain ⟨type, length, hannounces⟩ := exists_announces hlong
      rw [(announcedLength?_eq_some_iff octets length).mpr ⟨type, hannounces⟩] at hnone
      cases hnone
  · intro hshort
    rw [announcedLength?, header?_of_lt hshort]
    rfl

/-- A slice is taken off whole, whatever stands behind it. -/
theorem IsSlice.nextOrder_append {slice : Bytes} (h : IsSlice slice) (rest : Bytes) :
    nextOrder (slice ++ rest) = .order (ServerOrder.decode slice) rest := by
  obtain ⟨type, hwhole⟩ := h
  have hannounced : announcedLength? (slice ++ rest) = some slice.length :=
    (announcedLength?_eq_some_iff _ _).mpr ⟨type, hwhole.announces.append rest⟩
  have hlong : ¬ (slice ++ rest).length < slice.length := by
    rw [List.length_append]
    omega
  simp only [nextOrder, hannounced, headerSize, if_neg (Nat.not_lt.mpr hwhole.four_le),
    if_neg hlong, List.take_left, List.drop_left]

/-- The reader waits for the rest of an order. -/
theorem IsIncomplete.nextOrder_eq {octets : Bytes} (h : IsIncomplete octets) :
    nextOrder octets = .waiting := by
  obtain hshort | ⟨type, length, hannounces, hfour, hless⟩ := h
  · simp only [nextOrder, (announcedLength?_eq_none_iff octets).mpr hshort]
  · simp only [nextOrder, (announcedLength?_eq_some_iff octets length).mpr ⟨type, hannounces⟩,
      headerSize, if_neg (Nat.not_lt.mpr hfour), if_pos hless]

/-- A length that leaves no room for the header breaks the stream. -/
theorem Announces.nextOrder_eq {octets : Bytes} {type : UInt16} {length : Nat}
    (h : Announces octets type length) (hless : length < 4) :
    nextOrder octets = .broken (.badLength length) := by
  have hsmall : length < headerSize := hless
  simp only [nextOrder, (announcedLength?_eq_some_iff octets length).mpr ⟨type, h⟩, if_pos hsmall]

/-- What is taken off a stream is a slice. -/
theorem isSlice_of_nextOrder {stream rest : Bytes} {outcome : Except Error ServerOrder}
    (h : nextOrder stream = .order outcome rest) :
    ∃ slice, stream = slice ++ rest ∧ IsSlice slice ∧ outcome = ServerOrder.decode slice := by
  obtain ⟨length, hannounced, hheader, hlength, rfl, rfl⟩ := nextOrder_eq_order h
  have hsize : (stream.take length).length = length := List.length_take_of_le hlength
  -- The header is among the octets that are taken off.
  have hfour : 4 ≤ (stream.take length).length := by
    rw [hsize]
    exact hheader
  obtain ⟨type, length', hannounces⟩ := exists_announces hfour
  have hwhole := (announcedLength?_eq_some_iff _ _).mpr
    ⟨type, hannounces.append (stream.drop length)⟩
  rw [List.take_append_drop, hannounced] at hwhole
  cases hwhole
  refine ⟨stream.take length, (List.take_append_drop length stream).symm, ⟨type, ?_⟩, rfl⟩
  rw [hsize]
  exact ⟨hannounces, hheader, Nat.le_of_eq hsize.symm⟩

/-- The reader waits only for the rest of an order. -/
theorem isIncomplete_of_nextOrder {stream : Bytes} (h : nextOrder stream = .waiting) :
    IsIncomplete stream := by
  cases hannounced : announcedLength? stream with
  | none => exact .inl ((announcedLength?_eq_none_iff stream).mp hannounced)
  | some length =>
    obtain ⟨type, hannounces⟩ := (announcedLength?_eq_some_iff stream length).mp hannounced
    -- The other answers to an announced length are no waiting.
    simp only [nextOrder, hannounced] at h
    split at h
    · cases h
    · rename_i hfour
      split at h
      · rename_i hless
        exact .inr ⟨type, length, hannounces, Nat.le_of_not_lt hfour, hless⟩
      · cases h

/-- A fault in the header: it is not all there, the length that it announces is impossible, or there
are fewer octets than it announces. -/
def Error.IsHeaderFault : Error → Prop
  | truncated what _ _ => what = "order header" ∨ what = "order body"
  | badLength _ => True
  | _ => False

/-- The header of a whole order has no fault any more. -/
theorem IsWhole.not_isHeaderFault {octets : Bytes} {type : UInt16} {length : Nat}
    (h : IsWhole octets type length) {cause : Error}
    (hdecode : ServerOrder.decode octets = .error cause) : ¬cause.IsHeaderFault := by
  -- The faults of a header contradict what it announces. All others have names of their own.
  cases fault_of_decode hdecode with
  | header hsize =>
    have := h.announces.four_le_length
    omega
  | length hannounces hless =>
    obtain ⟨-, rfl⟩ := hannounces.unique h.announces
    exact absurd h.four_le (Nat.not_le.mpr hless)
  | body hannounces _ hless =>
    obtain ⟨-, rfl⟩ := hannounces.unique h.announces
    exact absurd h.le_size (Nat.not_le.mpr hless)
  | fixedPart _ hpart _ =>
    obtain ⟨-, rfl, -⟩ | ⟨-, rfl, -⟩ | ⟨-, rfl, -⟩ := fixedPart?_cases hpart <;>
      simp [Error.IsHeaderFault]
  | program => simp [Error.IsHeaderFault]
  | text => exact id

/-- A fault in a slice is no fault in its length. -/
theorem IsSlice.decode_ne_badLength {slice : Bytes} (h : IsSlice slice) (length : Nat) :
    ServerOrder.decode slice ≠ .error (.badLength length) := by
  obtain ⟨type, hwhole⟩ := h
  exact fun hdecode => hwhole.not_isHeaderFault hdecode trivial

/-! ### Reading piece by piece -/

/-- What the reader of a stream has to show. -/
structure Cutting where
  /-- The orders and the faults that were handed out. -/
  outcomes : List (Except Error ServerOrder) := []
  /-- The octets that no order has taken up. -/
  rest : Bytes := []
  /-- Whether an impossible length was announced, so that nothing is taken off any more. -/
  isBroken : Bool := false

namespace Cutting

/-- With these outcomes handed out before. -/
def behind (outcomes : List (Except Error ServerOrder)) (c : Cutting) : Cutting :=
  { c with outcomes := outcomes ++ c.outcomes }

/-- Takes orders off a stream until more octets are needed or an impossible length is announced. -/
def cutAll (stream : Bytes) : Cutting :=
  match _h : nextOrder stream with
  | .waiting => { rest := stream }
  | .broken cause => ⟨[.error cause], stream, true⟩
  | .order outcome rest => behind [outcome] (cutAll rest)
termination_by stream.length
decreasing_by
  have hrest := length_rest_of_nextOrder _h
  rw [headerSize] at hrest
  omega

/-- One more piece arrives. -/
def feed (c : Cutting) (piece : Bytes) : Cutting :=
  if c.isBroken then { c with rest := c.rest ++ piece }
  else behind c.outcomes (cutAll (c.rest ++ piece))

section Equations

variable {stream rest : Bytes}

/-- The beginning of an order is kept for later. -/
theorem cutAll_of_waiting (h : nextOrder stream = .waiting) :
    cutAll stream = { rest := stream } := by
  rw [cutAll]
  split
  · rfl
  all_goals
    rename_i hcase
    rw [h] at hcase
    cases hcase

/-- At an impossible length the reader stops for good. -/
theorem cutAll_of_broken {cause : Error} (h : nextOrder stream = .broken cause) :
    cutAll stream = ⟨[.error cause], stream, true⟩ := by
  rw [cutAll]
  split
  all_goals
    rename_i hcase
    rw [h] at hcase
    cases hcase
  rfl

/-- An order is handed out before those behind it. -/
theorem cutAll_of_order {outcome : Except Error ServerOrder}
    (h : nextOrder stream = .order outcome rest) :
    cutAll stream = behind [outcome] (cutAll rest) := by
  rw [cutAll]
  split
  all_goals
    rename_i hcase
    rw [h] at hcase
    cases hcase
  rfl

end Equations

/-- What was handed out before makes no difference to what a piece leads to. -/
theorem feed_behind (outcomes : List (Except Error ServerOrder)) (c : Cutting) (piece : Bytes) :
    (c.behind outcomes).feed piece = (c.feed piece).behind outcomes := by
  unfold feed
  rw [show (c.behind outcomes).isBroken = c.isBroken from rfl]
  split
  · rfl
  · simp only [behind, List.append_assoc]

/-- It makes no difference whether a piece arrives before the orders in front of it are taken off
or afterwards. -/
theorem feed_cutAll (stream piece : Bytes) :
    (cutAll stream).feed piece = cutAll (stream ++ piece) := by
  -- The induction is on the orders that are taken off the stream before the piece arrives.
  induction hsize : stream.length using Nat.strongRecOn generalizing stream with
  | ind size ih =>
    cases hnext : nextOrder stream with
    | waiting =>
      rw [cutAll_of_waiting hnext]
      rfl
    | broken cause =>
      rw [cutAll_of_broken hnext, cutAll_of_broken (nextOrder_append_of_broken hnext piece)]
      rfl
    | order outcome rest =>
      have hrest := length_rest_of_nextOrder hnext
      rw [headerSize] at hrest
      rw [cutAll_of_order hnext, cutAll_of_order (nextOrder_append hnext piece), feed_behind,
        ih rest.length (by omega) rest rfl]

/-- Pieces behind a stream lead to what the stream and the pieces lead to at once. -/
theorem foldl_feed_cutAll (stream : Bytes) (pieces : List Bytes) :
    pieces.foldl feed (cutAll stream) = cutAll (stream ++ pieces.flatten) := by
  induction pieces generalizing stream with
  | nil => rw [List.flatten_nil, List.append_nil, List.foldl_nil]
  | cons piece pieces ih =>
    rw [List.foldl_cons, feed_cutAll, ih, List.flatten_cons, List.append_assoc]

/-- However a stream is cut, its pieces lead to what it leads to as a whole. -/
theorem foldl_feed (pieces : List Bytes) : pieces.foldl feed {} = cutAll pieces.flatten := by
  have hempty : cutAll [] = {} := cutAll_of_waiting rfl
  rw [← hempty, foldl_feed_cutAll, List.nil_append]

/-- The slices of a stream are taken off one after another, and then the tail is left. -/
theorem cutAll_flatten_append {slices : List Bytes} (h : ∀ slice ∈ slices, IsSlice slice)
    (tail : Bytes) :
    cutAll (slices.flatten ++ tail)
      = behind (slices.map ServerOrder.decode) (cutAll tail) := by
  induction slices with
  | nil => rfl
  | cons slice slices ih =>
    obtain ⟨hslice, hslices⟩ := List.forall_mem_cons.mp h
    rw [List.flatten_cons, List.append_assoc, cutAll_of_order (hslice.nextOrder_append _),
      ih hslices]
    rfl

end Cutting

/-- Every stream is made of slices and a tail that is not taken off. -/
theorem exists_slices (stream : Bytes) :
    ∃ (slices : List Bytes) (tail : Bytes), stream = slices.flatten ++ tail ∧
      (∀ slice ∈ slices, IsSlice slice) ∧
      (IsIncomplete tail ∨ ∃ type length, Announces tail type length ∧ length < 4) := by
  induction hsize : stream.length using Nat.strongRecOn generalizing stream with
  | ind size ih =>
    cases hnext : nextOrder stream with
    | waiting =>
      exact ⟨[], stream, rfl, List.forall_mem_nil _, .inl (isIncomplete_of_nextOrder hnext)⟩
    | broken cause =>
      obtain ⟨length, hannounced, hsmall, -⟩ := nextOrder_eq_broken hnext
      obtain ⟨type, hannounces⟩ := (announcedLength?_eq_some_iff stream length).mp hannounced
      exact ⟨[], stream, rfl, List.forall_mem_nil _, .inr ⟨type, length, hannounces, hsmall⟩⟩
    | order outcome rest =>
      have hrest := length_rest_of_nextOrder hnext
      rw [headerSize] at hrest
      obtain ⟨slice, rfl, hslice, -⟩ := isSlice_of_nextOrder hnext
      obtain ⟨slices, tail, hstream, hslices, htail⟩ := ih rest.length (by omega) rest rfl
      refine ⟨slice :: slices, tail, ?_, List.forall_mem_cons.mpr ⟨hslice, hslices⟩, htail⟩
      rw [List.flatten_cons, List.append_assoc, ← hstream]

/-- The pieces in which a stream arrives mean nothing. All that matters is how the stream falls
into slices. Each of them gives an outcome of its own, malformed or not, and an incomplete tail is
left over, which is a failure once the stream has ended. In front of an impossible length the
slices come out all the same, and it is itself the last outcome. -/
theorem cutting_pieces (pieces : List Bytes) :
    let c := pieces.foldl Cutting.feed {}
    c = Cutting.feed {} pieces.flatten ∧
    (∀ (slices : List Bytes) (tail : Bytes), pieces.flatten = slices.flatten ++ tail →
      (∀ slice ∈ slices, IsSlice slice) → IsIncomplete tail →
        c.outcomes = slices.map ServerOrder.decode ∧ c.rest = tail ∧ c.isBroken = false ∧
        lastOrder c.rest = if tail.isEmpty then .waiting else .broken bytesRemaining) ∧
    ∃ (slices : List Bytes) (tail : Bytes), pieces.flatten = slices.flatten ++ tail ∧
      (∀ slice ∈ slices, IsSlice slice ∧
        ∀ length, ServerOrder.decode slice ≠ .error (.badLength length)) ∧
      (IsIncomplete tail ∨
        ∃ type length, Announces tail type length ∧ length < 4 ∧
          c.outcomes = slices.map ServerOrder.decode ++ [.error (.badLength length)] ∧
          c.rest = tail ∧ c.isBroken = true ∧
          lastOrder c.rest = .broken (.badLength length)) := by
  intro c
  -- All that follows is about the stream in one piece.
  have hc : c = Cutting.cutAll pieces.flatten := Cutting.foldl_feed pieces
  refine ⟨?_, fun slices tail hstream hslices htail => ?_, ?_⟩
  · rw [hc]
    rfl
  · have hnext := htail.nextOrder_eq
    rw [hc, hstream, Cutting.cutAll_flatten_append hslices, Cutting.cutAll_of_waiting hnext]
    refine ⟨List.append_nil _, rfl, rfl, ?_⟩
    show lastOrder tail = _
    simp only [lastOrder, hnext]
  · obtain ⟨slices, tail, hstream, hslices, htail⟩ := exists_slices pieces.flatten
    refine ⟨slices, tail, hstream,
      fun slice hslice => ⟨hslices slice hslice, (hslices slice hslice).decode_ne_badLength⟩,
      htail.imp_right ?_⟩
    rintro ⟨type, length, hannounces, hless⟩
    have hnext := hannounces.nextOrder_eq hless
    rw [hc, hstream, Cutting.cutAll_flatten_append hslices, Cutting.cutAll_of_broken hnext]
    refine ⟨type, length, hannounces, hless, rfl, rfl, rfl, ?_⟩
    show lastOrder tail = _
    simp only [lastOrder, hnext]

/-- A handshake cut inside its header and inside its body, a report without a body, and the first
octet of another order. -/
def cutPieces : List Bytes :=
  [[5, 0, 8], [], [0, 1, 0], [0, 0, 0x80, 0], [4], [0, 5]]

/-- The handshake and the broken report are handed out, and one octet is left over. -/
theorem cutting_pieces_cutPieces :
    let c := cutPieces.foldl Cutting.feed {}
    c.outcomes = [.ok (.handshake ⟨1⟩), .error (.truncated "exec result" 12 0)] ∧
      c.rest = [5] ∧ lastOrder c.rest = .broken bytesRemaining := by
  have hslices : ∀ slice ∈ ([[5, 0, 8, 0, 1, 0, 0, 0], [0x80, 0, 4, 0]] : List Bytes),
      IsSlice slice := by
    refine List.forall_mem_cons.mpr ⟨?_, List.forall_mem_singleton.mpr ?_⟩
    · exact ⟨5, ⟨rfl, rfl⟩, by decide, by decide⟩
    · exact ⟨0x80, ⟨rfl, rfl⟩, by decide, by decide⟩
  obtain ⟨houtcomes, hrest, -, hlast⟩ :=
    (cutting_pieces cutPieces).2.1 _ [5] rfl hslices (.inl (by decide))
  exact ⟨houtcomes, hrest, hlast⟩

end RemotePrograms
