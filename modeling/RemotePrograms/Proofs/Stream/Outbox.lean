import RemotePrograms.Proofs.Order.ParameterReader
import RemotePrograms.Stream.Outbox

/-!
# `RemotePrograms.Proofs.Stream.Outbox`: an order is queued whole or not at all

`Outbox.push` queues the PDUs of an order one by one and gives up at the first that is not taken.
Nobody stops reading the queue in the middle of that, so it is the first PDU that is not taken or
none. `push_eq` says this of the whole loop, and `send_of_encode` of an order whose PDUs there are.

* `ClientOrder.encode_eq_nil_iff`: which orders have no PDU, so that even a queue that nobody reads
  does not refuse them.
* `ClientOrder.isTooLong_of_encode`: the only reason why an order is not encoded.
* `sendAll`: orders that are sent one after another. What they leave in the queue is read off the
  answers (`taken`).

`send_all_or_nothing` puts them together.
-/

set_option autoImplicit false

namespace RemotePrograms

/-! ### Orders that cannot be queued, and orders that need not be -/

namespace ClientOrder

/-- An order that is not encoded has a text that is too long. -/
theorem isTooLong_of_encode {order : ClientOrder} {cause : Error}
    (h : order.encode = .error cause) : ∃ field size max, cause = .tooLong field size max := by
  cases order with
  | handshake order => cases h
  | clientStatus order => cases h
  | systemParameters order =>
    obtain ⟨-, -, rfl⟩ := (order.encode_eq_error_iff cause).mp h
    exact ⟨_, _, _, rfl⟩
  | launch order =>
    cases hencode : order.encode with
    | ok pdu => simp [encode, hencode, Except.map] at h
    | error cause' =>
      have hcause : cause' = cause := by simpa [encode, hencode, Except.map] using h
      rw [hcause, order.encode_eq_error_iff] at hencode
      obtain ⟨-, rfl⟩ | ⟨-, -, rfl⟩ | ⟨-, -, -, rfl⟩ := hencode
      · exact ⟨_, _, _, rfl⟩
      · exact ⟨_, _, _, rfl⟩
      · exact ⟨_, _, _, rfl⟩

/-- Only an update that sets nothing has no PDU. -/
theorem encode_eq_nil_iff (order : ClientOrder) :
    order.encode = .ok [] ↔
      ∃ update, order = .systemParameters update ∧ update.params.bits &&& 0x9F = 0 := by
  cases order with
  | handshake order => simp [encode]
  | clientStatus order => simp [encode]
  | launch order => cases hencode : order.encode <;> simp [encode, hencode, Except.map]
  | systemParameters order =>
    have hfields : order.encode = .ok [] ↔ order.fields = [] := by
      rw [SystemParameters.encode, mapM_eq_ok_iff, List.map_nil, List.map_eq_nil_iff]
    -- A mask without a bit that has a meaning is one that agrees with the empty mask.
    let nothing : SystemParameters := { order with params := ⟨0⟩ }
    have hnone : ∀ param, ¬ nothing.Sets param := by
      intro param
      simp [nothing, SystemParameters.Sets]
    have hmask : order.params.bits &&& 0x9F = nothing.params.bits &&& 0x9F ↔
        ∀ param, order.Sets param ↔ nothing.Sets param := SystemParameters.mask_eq_iff
    simp only [hnone, iff_false, nothing, UInt32.zero_and] at hmask
    simp only [encode, hfields, List.eq_nil_iff_forall_not_mem, SystemParameters.mem_fields_iff,
      systemParameters.injEq, exists_eq_left', hmask]

end ClientOrder

namespace Outbox

variable {order : ClientOrder} {box : Outbox}

/-! ### One order -/

/-- The loop in one piece: an open queue takes all the PDUs, and a queue that nobody reads refuses
the first one. -/
theorem push_eq (type : OrderType) (pdus : List Bytes) (box : Outbox) :
    push type pdus box
      = if box.isOpen || pdus.isEmpty then (.ok (), { box with queue := box.queue ++ pdus })
        else (.error (.sendFailed type notConnected), box) := by
  induction pdus generalizing box with
  | nil => simp [push]
  | cons pdu pdus ih =>
    -- The queue is as open after a PDU as it was before, so the later ones fare like the first.
    cases hopen : box.isOpen with
    | false => simp [push, hopen]
    | true => simp [push, hopen, ih]

/-- An order that can be written goes into an open queue as a whole. -/
theorem send_of_encode {pdus : List Bytes} (h : order.encode = .ok pdus) :
    box.send order
      = if box.isOpen || pdus.isEmpty then (.ok (), { box with queue := box.queue ++ pdus })
        else (.error (.sendFailed order.type notConnected), box) := by
  rw [send, h]
  exact push_eq order.type pdus box

/-- An order that cannot be written leaves the queue as it is. -/
theorem send_of_error {cause : Error} (h : order.encode = .error cause) :
    box.send order = (.error cause, box) := by
  rw [send, h]

/-- The PDUs of an order that a queue took, going by its answer. -/
def taken (order : ClientOrder) : Except Error Unit → List Bytes
  | .ok () => order.encode.toOption.getD []
  | .error _ => []

/-- An order puts into the queue what the queue takes of it, and a queue that nobody reads takes
nothing. -/
theorem send_snd (order : ClientOrder) (box : Outbox) :
    (box.send order).2 = { box with queue := box.queue ++ taken order (box.send order).1 } ∧
      (box.isOpen = false → taken order (box.send order).1 = []) := by
  cases hencode : order.encode with
  | error cause =>
    rw [send_of_error hencode]
    simp [taken]
  | ok pdus =>
    rw [send_of_encode hencode]
    have htaken : taken order (.ok ()) = pdus := by
      rw [taken, hencode]
      rfl
    split
    · rename_i hbox
      simp only [htaken, true_and]
      intro hclosed
      simpa [hclosed] using hbox
    · simp [taken]

/-- Sending neither opens a queue nor shuts it. -/
theorem isOpen_send (order : ClientOrder) (box : Outbox) :
    (box.send order).2.isOpen = box.isOpen := by
  rw [(box.send_snd order).1]

/-- An order whose PDUs there are is refused only by a queue that nobody reads. -/
theorem send_eq_error_iff {pdus : List Bytes} (h : order.encode = .ok pdus) (cause : Error) :
    (box.send order).1 = .error cause ↔
      box.isOpen = false ∧ pdus ≠ [] ∧ cause = .sendFailed order.type notConnected := by
  rw [send_of_encode h]
  cases box.isOpen <;> cases pdus <;> simp [eq_comm]

/-! ### One order after another -/

/-- Sends some orders. The first component has the answers. -/
def sendAll : List ClientOrder → Outbox → List (Except Error Unit) × Outbox
  | [], box => ([], box)
  | order :: orders, box =>
    let (answer, box) := box.send order
    let (answers, box) := sendAll orders box
    (answer :: answers, box)

/-- The first order is sent before the others, to the queue as they find it. -/
theorem sendAll_cons (order : ClientOrder) (orders : List ClientOrder) (box : Outbox) :
    sendAll (order :: orders) box
      = ((box.send order).1 :: (sendAll orders (box.send order).2).1,
        (sendAll orders (box.send order).2).2) :=
  rfl

/-- The queue gets the PDUs of the orders that were sent, and of no others. -/
theorem sendAll_snd (orders : List ClientOrder) (box : Outbox) :
    (sendAll orders box).2
      = { box with queue := box.queue
            ++ (orders.zip (sendAll orders box).1).flatMap fun sent => taken sent.1 sent.2 } := by
  induction orders generalizing box with
  | nil => simp [sendAll]
  | cons order orders ih =>
    -- The later orders find in the queue what the first one left there.
    rw [sendAll_cons, ih, (box.send_snd order).1]
    simp only [List.zip_cons_cons, List.flatMap_cons, List.append_assoc]

/-- Into an open queue an order is sent if it can be encoded. -/
theorem sendAll_fst (orders : List ClientOrder) (hopen : box.isOpen = true) :
    (sendAll orders box).1 = orders.map fun order => order.encode.map fun _ => () := by
  induction orders generalizing box with
  | nil => rfl
  | cons order orders ih =>
    have hanswer : (box.send order).1 = order.encode.map fun _ => () := by
      cases hencode : order.encode with
      | error cause => simp [send_of_error hencode, Except.map]
      | ok pdus => simp [send_of_encode hencode, hopen, Except.map]
    rw [sendAll_cons, ih ((box.isOpen_send order).trans hopen), hanswer, List.map_cons]

end Outbox

/-! ### The property -/

/-- An order is queued whole or not at all. Either it is sent, and then the queue has got the PDUs
of its encoding and nothing else, or there is an error, and then the queue is as it was. An order
that cannot be encoded, for it has a text that is too long, is reported as such even if nobody reads
the queue. Any other order is refused exactly if nobody reads the queue and it has a PDU; all have
one but updates that set nothing. So of the orders that are sent one after another the queue gets
those that were sent, and while it is open these are the ones that can be encoded. -/
theorem send_all_or_nothing (box : Outbox) :
    (∀ order : ClientOrder,
      (∃ pdus, order.encode = .ok pdus ∧
        box.send order = (.ok (), { box with queue := box.queue ++ pdus })) ∨
      ∃ cause, box.send order = (.error cause, box)) ∧
    (∀ (order : ClientOrder) (cause : Error), order.encode = .error cause →
      box.send order = (.error cause, box) ∧ ∃ field size max, cause = .tooLong field size max) ∧
    (∀ (order : ClientOrder) (pdus : List Bytes), order.encode = .ok pdus →
      ∀ cause, (box.send order).1 = .error cause ↔
        box.isOpen = false ∧ pdus ≠ [] ∧ cause = .sendFailed order.type 4) ∧
    (∀ order : ClientOrder, order.encode = .ok [] ↔
      ∃ update, order = .systemParameters update ∧ update.params.bits &&& 0x9F = 0) ∧
    ∀ orders : List ClientOrder,
      (Outbox.sendAll orders box).2
        = { box with queue := box.queue
              ++ (orders.zip (Outbox.sendAll orders box).1).flatMap fun sent =>
                Outbox.taken sent.1 sent.2 } ∧
      (box.isOpen = true → (Outbox.sendAll orders box).1
        = orders.map fun order => order.encode.map fun _ => ()) := by
  refine ⟨?_, ?_, ?_, ClientOrder.encode_eq_nil_iff, ?_⟩
  · intro order
    cases hencode : order.encode with
    | error cause => exact .inr ⟨cause, Outbox.send_of_error hencode⟩
    | ok pdus =>
      rw [Outbox.send_of_encode hencode]
      -- An open queue takes the PDUs, and to send none succeeds on any queue.
      split
      · exact .inl ⟨pdus, rfl, rfl⟩
      · exact .inr ⟨_, rfl⟩
  · intro order cause hencode
    exact ⟨Outbox.send_of_error hencode, ClientOrder.isTooLong_of_encode hencode⟩
  · intro order pdus hencode cause
    exact Outbox.send_eq_error_iff hencode cause
  · intro orders
    exact ⟨Outbox.sendAll_snd orders box, Outbox.sendAll_fst orders⟩

/-- A launch of a program whose path is too long by one character. -/
def longLaunch : Launch :=
  ⟨⟨0⟩, String.ofList (List.replicate 261 'a'), "", ""⟩

/-- An update whose mask has bits without a meaning and no other. -/
def idleUpdate : SystemParameters :=
  { schemeUpdate with params := ⟨0x60⟩ }

/-- An open queue takes what is sent before and after a launch that is too long. A queue that nobody
reads refuses an update that sets something, and it does not refuse one that sets nothing. The
launch is too long for either of them. -/
theorem send_all_or_nothing_shut :
    (Outbox.sendAll [.systemParameters schemeUpdate, .launch longLaunch, .handshake ⟨7⟩] {}).2.queue
        = [schemePdu, buttonPdu, [5, 0, 8, 0, 7, 0, 0, 0]] ∧
      (Outbox.send (.systemParameters schemeUpdate) ⟨[buttonPdu], false⟩).1
        = .error (.sendFailed .systemParameters 4) ∧
      Outbox.send (.systemParameters idleUpdate) ⟨[buttonPdu], false⟩
        = (.ok (), ⟨[buttonPdu], false⟩) ∧
      Outbox.send (.launch longLaunch) ⟨[buttonPdu], false⟩
        = (.error (.tooLong "program" 522 520), ⟨[buttonPdu], false⟩) := by
  have hlong : ClientOrder.encode (.launch longLaunch) = .error (.tooLong "program" 522 520) := by
    have hsize : Text.Utf16.size longLaunch.program = 522 := by
      rw [longLaunch, Text.Utf16.size, String.toList_ofList, List.map_replicate,
        List.sum_replicate_nat]
      decide
    have hlaunch : longLaunch.encode = .error (.tooLong "program" 522 520) := by
      rw [longLaunch.encode_eq_error_iff, hsize]
      exact .inl ⟨by decide, rfl⟩
    rw [ClientOrder.encode, hlaunch]
    rfl
  have hscheme : ClientOrder.encode (.systemParameters schemeUpdate)
      = .ok [schemePdu, buttonPdu] := by rfl
  obtain ⟨-, -, -, -, hqueue⟩ := send_all_or_nothing {}
  obtain ⟨hone, herror, hrefused, hnone, -⟩ := send_all_or_nothing ⟨[buttonPdu], false⟩
  refine ⟨?_, ?_, ?_, (herror _ _ hlong).1⟩
  · obtain ⟨hqueue, hanswers⟩ :=
      hqueue [.systemParameters schemeUpdate, .launch longLaunch, .handshake ⟨7⟩]
    rw [hqueue, hanswers rfl]
    simp only [List.map_cons, List.map_nil, hscheme, hlong]
    rfl
  · exact (hrefused _ _ hscheme _).mpr ⟨rfl, by decide, rfl⟩
  · have hidle : ClientOrder.encode (.systemParameters idleUpdate) = .ok [] :=
      (hnone _).mpr ⟨idleUpdate, rfl, by decide⟩
    obtain ⟨pdus, hpdus, hsend⟩ | ⟨cause, hcause⟩ := hone (.systemParameters idleUpdate)
    · cases hidle.symm.trans hpdus
      exact hsend
    · -- There is no PDU that could have been refused.
      obtain ⟨-, hsome, -⟩ := (hrefused _ _ hidle cause).mp (congrArg Prod.fst hcause)
      exact absurd rfl hsome

end RemotePrograms
