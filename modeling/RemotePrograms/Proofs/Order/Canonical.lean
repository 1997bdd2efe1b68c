import RemotePrograms.Proofs.Order.HeaderChecks
import RemotePrograms.Proofs.Order.LaunchReader
import RemotePrograms.Proofs.Order.ProgramText

/-!
# `RemotePrograms.Proofs.Order.Canonical`: what is read, written again

The reader is lenient. It takes a body that is longer than its fields, padding that is not zero, and
a program with NULs behind it, so many octets are read as the same order. The writer makes one PDU
of an order. `IsTight` says of a slice that it has none of the three, and these slices are the ones
that the writer gives back.

* `drop_of_field16?` and `drop_of_field32?`: the octets from an offset on begin with the field that
  stands there. A slice is put together from its fields by these two.
* `LaunchReport.pduWith`: the PDU of a report with some slack in it. The slices that are read as a
  report are such PDUs, `Spells.exists_pduWith`, and the writer leaves no slack.
* `Rewrites`: what there is to say about a slice, the order that it is read as, and the PDU that
  this order is written as. There is one lemma for each kind of order.

`encode_decode_tight` says it of any octets that are read as an order.
-/

set_option autoImplicit false

namespace RemotePrograms

open Text.Utf16

/-! ### Fields and what stands behind them -/

/-- A word is written as the octets that it was read from. -/
theorem le32_word32 (a b c d : UInt8) : le32 (word32 a b c d) = [a, b, c, d] := by
  have ha := a.toNat_lt
  have hb := b.toNat_lt
  have hc := c.toNat_lt
  have hd := d.toNat_lt
  -- The octets are the digits of the word to the base 256.
  have hw : (word32 a b c d).toNat
      = a.toNat + 0x100 * b.toNat + 0x10000 * c.toNat + 0x1000000 * d.toNat := by
    simp only [word32, UInt32.toNat_add, UInt32.toNat_mul, UInt8.toNat_toUInt32,
      UInt32.reduceToNat]
    omega
  have h1 : (word32 a b c d).toUInt8 = a := UInt8.toNat_inj.mp (by
    rw [UInt32.toNat_toUInt8, hw]
    omega)
  have h2 : (word32 a b c d / 0x100).toUInt8 = b := UInt8.toNat_inj.mp (by
    simp only [UInt32.toNat_toUInt8, UInt32.toNat_div, hw, UInt32.reduceToNat]
    omega)
  have h3 : (word32 a b c d / 0x10000).toUInt8 = c := UInt8.toNat_inj.mp (by
    simp only [UInt32.toNat_toUInt8, UInt32.toNat_div, hw, UInt32.reduceToNat]
    omega)
  have h4 : (word32 a b c d / 0x1000000).toUInt8 = d := UInt8.toNat_inj.mp (by
    simp only [UInt32.toNat_toUInt8, UInt32.toNat_div, hw, UInt32.reduceToNat]
    omega)
  rw [le32, h1, h2, h3, h4]

section Fields

variable {octets : Bytes} {i : Nat}

/-- The octets from a place on begin with the one that stands there. -/
theorem drop_of_getElem? {a : UInt8} (h : octets[i]? = some a) :
    octets.drop i = a :: octets.drop (i + 1) := by
  obtain ⟨hi, rfl⟩ := List.getElem?_eq_some_iff.mp h
  exact List.drop_eq_getElem_cons hi

/-- The octets from a 16-bit field on begin with its number as it is written. -/
theorem drop_of_field16? {n : UInt16} (h : field16? octets i = some n) :
    octets.drop i = le16 n ++ octets.drop (i + 2) := by
  unfold field16? at h
  split at h
  · rename_i a b ha hb
    cases h
    rw [le16_word16, drop_of_getElem? ha, drop_of_getElem? hb]
    rfl
  · cases h

/-- The octets from a 32-bit field on begin with its number as it is written. -/
theorem drop_of_field32? {n : UInt32} (h : field32? octets i = some n) :
    octets.drop i = le32 n ++ octets.drop (i + 4) := by
  unfold field32? at h
  split at h
  · rename_i a b c d ha hb hc hd
    cases h
    rw [le32_word32, drop_of_getElem? ha, drop_of_getElem? hb, drop_of_getElem? hc,
      drop_of_getElem? hd]
    rfl
  · cases h

end Fields

/-- A slice is its header and what stands behind it. -/
theorem IsWhole.eq_framed {slice : Bytes} {type : UInt16} (h : IsWhole slice type slice.length) :
    slice = framed type (slice.drop 4) :=
  eq_framed_of_header? ((header?_eq_some_iff slice type slice.length).mpr h.announces)

/-- All that a slice can announce is its own length. -/
theorem IsSlice.length_eq {slice : Bytes} (hslice : IsSlice slice) {type : UInt16} {length : Nat}
    (h : Announces slice type length) : length = slice.length := by
  obtain ⟨type', hwhole⟩ := hslice
  exact (h.unique hwhole.announces).2

/-! ### Tight slices -/

/-- Reading this slice as an order leaves nothing of it out: no octet stands behind the last field,
and in a report the padding is zero and the program does not end in a zero unit. -/
def IsTight (slice : Bytes) : ServerOrder → Prop
  | .handshake _ => slice.length = 8
  | .extendedHandshake _ => slice.length = 12
  | .launchReport _ =>
    ∃ size, field16? slice 14 = some size ∧ slice.length = 16 + size.toNat ∧
      field16? slice 12 = some 0 ∧
      (codeUnits (programOctets slice size.toNat)).getLast? ≠ some 0
  | .other _ _ => True

/-- The PDU that is written of what was read in a slice. -/
structure Rewrites (slice : Bytes) (order : ServerOrder) (pdu : Bytes) : Prop where
  decode_eq : ServerOrder.decode pdu = .ok order
  length_le : pdu.length ≤ slice.length
  eq_iff : pdu = slice ↔ IsTight slice order

/-! ### Handshakes -/

/-- A PDU with octets behind its last field is longer than the one without, and nothing else. -/
theorem framed_eq_framed_append_iff (type : UInt16) (body surplus : Bytes) :
    framed type body = framed type (body ++ surplus) ↔
      (framed type (body ++ surplus)).length = (framed type body).length := by
  constructor
  · intro h
    rw [← h]
  · intro h
    rw [length_framed, length_framed, List.length_append] at h
    have hsurplus : surplus = [] := List.eq_nil_of_length_eq_zero (by omega)
    rw [hsurplus, List.append_nil]

/-- A PDU does not get shorter when octets are put behind its body. -/
theorem length_framed_le_append (type : UInt16) (body surplus : Bytes) :
    (framed type body).length ≤ (framed type (body ++ surplus)).length := by
  rw [length_framed, length_framed, List.length_append]
  omega

section Slices

variable {slice : Bytes}

/-- A handshake that was read is written without what stands behind its field. -/
theorem rewrites_handshake {order : Handshake} (hslice : IsSlice slice)
    (h : Spells slice (.handshake order)) : Rewrites slice (.handshake order) order.encode := by
  cases h with
  | @handshake length build h _ hbuild =>
    obtain rfl := hslice.length_eq h.announces
    have hlayout := h.eq_framed
    rw [drop_of_field32? hbuild] at hlayout
    generalize slice.drop 8 = surplus at hlayout
    subst hlayout
    exact ⟨Handshake.decode_encode _, length_framed_le_append _ _ _,
      framed_eq_framed_append_iff _ _ _⟩

/-- An extended handshake that was read is written without what stands behind its fields. -/
theorem rewrites_extendedHandshake {order : ExtendedHandshake} (hslice : IsSlice slice)
    (h : Spells slice (.extendedHandshake order)) :
    Rewrites slice (.extendedHandshake order) order.encode := by
  cases h with
  | @extendedHandshake length build flags h _ hbuild hflags =>
    obtain rfl := hslice.length_eq h.announces
    have hlayout := h.eq_framed
    rw [drop_of_field32? hbuild, drop_of_field32? hflags, ← List.append_assoc] at hlayout
    generalize slice.drop 12 = surplus at hlayout
    subst hlayout
    exact ⟨ExtendedHandshake.decode_encode _, length_framed_le_append _ _ _,
      framed_eq_framed_append_iff _ _ _⟩

end Slices

/-! ### Reports -/

/-- A result that was read keeps its number, even if it has no name. -/
theorem LaunchResult.code_ofCode (n : UInt16) : (ofCode n).code = n := by
  rw [ofCode]
  cases h : named.find? fun result => result.code == n with
  | none => rfl
  | some result => simpa using List.find?_some h

/-- The code of a result says all about it that a reader knows. -/
theorem LaunchResult.normal_ofCode (n : UInt16) : (ofCode n).normal = ofCode n := by
  rw [← ofCode_code, code_ofCode]

/-- What is read as a report is a report in normal form. -/
theorem Spells.normal_eq {octets : Bytes} {order : LaunchReport}
    (h : Spells octets (.launchReport order)) : order.normal = order := by
  cases h with
  | @launchReport length nuls flags code size raw text program _ _ _ _ _ _ _ _ _ hlast =>
    have hprogram := (trimNuls_eq_self_iff program).mpr hlast
    simp only [LaunchReport.normal, LaunchResult.normal_ofCode, hprogram]

/-- What the format leaves open in the PDU of a report. -/
structure LaunchReport.Slack where
  /-- The octets in front of the size of the program. -/
  padding : UInt16 := 0
  /-- How many NULs stand behind the program. -/
  nuls : Nat := 0
  /-- The octets behind the program and its NULs. -/
  surplus : Bytes := []

/-- There is no slack if and only if each part of it is missing. -/
theorem LaunchReport.Slack.eq_none_iff (slack : Slack) :
    slack = {} ↔ slack.padding = 0 ∧ slack.nuls = 0 ∧ slack.surplus = [] := by
  cases slack
  rw [mk.injEq]

/-- A PDU that is read as a report: its fields, and this slack. -/
def LaunchReport.pduWith (order : LaunchReport) (slack : Slack) : Bytes :=
  framed OrderType.launchReport.wire
    (le16 order.flags.bits ++ le16 order.result.code ++ le32 order.rawResult ++ le16 slack.padding
      ++ le16 (.ofNat (Text.Utf16.size order.program + 2 * slack.nuls))
      ++ Text.Utf16.encode order.program ++ nulUnits slack.nuls ++ slack.surplus)

namespace LaunchReport

section PduWith

variable (order : LaunchReport) (slack : Slack)

/-- The slack adds its zero units and its surplus to the length. -/
theorem length_pduWith : (order.pduWith slack).length
    = 16 + (Text.Utf16.size order.program + 2 * slack.nuls) + slack.surplus.length := by
  simp only [pduWith, length_framed, List.length_append, length_le16, length_le32,
    Text.Utf16.length_encode, length_nulUnits]
  omega

/-- The padding stands where the reader skips it. -/
theorem field16?_padding : field16? (order.pduWith slack) 12 = some slack.padding := by
  show some (word16 _ _) = _
  rw [word16_le16]

/-- The size of the program counts the zero units behind it. -/
theorem field16?_size : field16? (order.pduWith slack) 14
    = some (.ofNat (Text.Utf16.size order.program + 2 * slack.nuls)) := by
  show some (word16 _ _) = _
  rw [word16_le16]

/-- The octets of the program end in the zero units of the slack. -/
theorem programOctets_pduWith :
    programOctets (order.pduWith slack) (Text.Utf16.size order.program + 2 * slack.nuls)
      = Text.Utf16.encode order.program ++ nulUnits slack.nuls := by
  show (Text.Utf16.encode order.program ++ nulUnits slack.nuls ++ slack.surplus).take _ = _
  rw [List.take_left']
  rw [List.length_append, Text.Utf16.length_encode, length_nulUnits]

/-- The writer leaves no slack. -/
theorem encode_eq_pduWith : order.encode
    = if Text.Utf16.size order.program ≤ maxPathSize then .ok (order.pduWith {})
      else .error (.tooLong "program" (Text.Utf16.size order.program) maxPathSize) := by
  have hbody : framed OrderType.launchReport.wire (order.body (Text.Utf16.encode order.program))
      = order.pduWith {} := by
    simp [body, pduWith, sizeField, nulUnits, Text.Utf16.length_encode]
  rw [order.encode_eq, hbody]

/-- Slack can be told from the octets. -/
theorem pduWith_eq_iff : order.pduWith {} = order.pduWith slack ↔ slack = {} := by
  constructor
  · intro h
    have hlength := congrArg List.length h
    have hpadding := congrArg (field16? · 12) h
    rw [length_pduWith, length_pduWith] at hlength
    simp only [field16?_padding, Option.some.injEq] at hpadding
    simp only [List.length_nil] at hlength
    exact slack.eq_none_iff.mpr
      ⟨hpadding.symm, by omega, List.eq_nil_of_length_eq_zero (by omega)⟩
  · rintro rfl
    rfl

variable {order slack}

/-- A PDU is tight exactly if there is no slack in it. -/
theorem isTight_pduWith_iff
    (hsize : Text.Utf16.size order.program + 2 * slack.nuls ≤ 65535)
    (hlast : order.program.toList.getLast? ≠ some '\x00') :
    IsTight (order.pduWith slack) (.launchReport order) ↔ slack = {} := by
  have hfield : (UInt16.ofNat (Text.Utf16.size order.program + 2 * slack.nuls)).toNat
      = Text.Utf16.size order.program + 2 * slack.nuls :=
    UInt16.toNat_ofNat_of_lt' (Nat.lt_succ_of_le hsize)
  rw [slack.eq_none_iff]
  constructor
  · -- The three parts of the slack are read off one by one.
    rintro ⟨size, hsize', hlength, hpadding, hunits⟩
    rw [field16?_size, Option.some.injEq] at hsize'
    subst hsize'
    rw [field16?_padding, Option.some.injEq] at hpadding
    rw [length_pduWith, hfield] at hlength
    rw [hfield, programOctets_pduWith, getLast?_codeUnits_append_nulUnits _ hlast] at hunits
    exact ⟨hpadding, hunits, List.eq_nil_of_length_eq_zero (by omega)⟩
  · rintro ⟨hpadding, hnuls, hsurplus⟩
    refine ⟨_, field16?_size order slack, ?_, ?_, ?_⟩
    · rw [length_pduWith, hfield, hsurplus, List.length_nil, Nat.add_zero]
    · rw [field16?_padding, hpadding]
    · rw [hfield, programOctets_pduWith]
      exact (getLast?_codeUnits_append_nulUnits _ hlast).mpr hnuls

end PduWith

end LaunchReport

/-- A slice that is read as a report holds the fields of the report, and besides them there is only
slack. -/
theorem Spells.exists_pduWith {slice : Bytes} {order : LaunchReport} (hslice : IsSlice slice)
    (h : Spells slice (.launchReport order)) :
    ∃ slack : LaunchReport.Slack, slice = order.pduWith slack ∧
      Text.Utf16.size order.program + 2 * slack.nuls ≤ 65535 := by
  cases h with
  | @launchReport length nuls flags code size raw text program h hlength hflags hcode hraw hsize
      hfit htext hnuls hlast =>
    obtain rfl := hslice.length_eq h.announces
    obtain ⟨padding, hpadding⟩ := exists_field16? slice 12 (by omega)
    rw [encode_of_append_nuls hnuls] at htext
    have hfield : size.toNat = Text.Utf16.size program + 2 * nuls := by
      have hoctets : (programOctets slice size.toNat).length = size.toNat := by
        rw [programOctets, List.length_take, List.length_drop]
        omega
      rw [← hoctets, htext, List.length_append, Text.Utf16.length_encode, length_nulUnits]
    have hprogram : slice.drop 16
        = Text.Utf16.encode program ++ nulUnits nuls ++ slice.drop (16 + size.toNat) := by
      rw [← htext, programOctets, ← List.drop_drop, List.take_append_drop]
    refine ⟨⟨padding, nuls, slice.drop (16 + size.toNat)⟩, ?_, ?_⟩
    · -- The fields stand one behind the other.
      have hlayout := h.eq_framed
      rw [drop_of_field16? hflags, drop_of_field16? hcode, drop_of_field32? hraw,
        drop_of_field16? hpadding, drop_of_field16? hsize, hprogram] at hlayout
      simp only [LaunchReport.pduWith, LaunchResult.code_ofCode, ← hfield, UInt16.ofNat_toNat,
        List.append_assoc] at hlayout ⊢
      exact hlayout
    · have hlt := size.toNat_lt
      simp only
      omega

/-- A report that was read is written without its slack. -/
theorem rewrites_launchReport {slice pdu : Bytes} {order : LaunchReport} (hslice : IsSlice slice)
    (h : Spells slice (.launchReport order)) (hencode : order.encode = .ok pdu) :
    Rewrites slice (.launchReport order) pdu := by
  have hnormal := h.normal_eq
  have hlast := (order.normal_eq_self_iff.mp hnormal).1
  have hdecode := (WrittenOrder.delimits_launchReport hencode).decode_eq
  rw [WrittenOrder.readBack, hnormal] at hdecode
  obtain ⟨slack, rfl, hsize⟩ := h.exists_pduWith hslice
  rw [order.encode_eq_pduWith] at hencode
  split at hencode
  · cases hencode
    refine ⟨hdecode, ?_, ?_⟩
    · simp only [LaunchReport.length_pduWith, List.length_nil]
      omega
    · rw [order.pduWith_eq_iff, LaunchReport.isTight_pduWith_iff hsize hlast]
  · cases hencode

/-! ### All orders -/

/-- An order without a meaning is its type and its body, and keeps all of a slice. -/
theorem Spells.eq_framed_of_other {slice body : Bytes} {type : UInt16} (hslice : IsSlice slice)
    (h : Spells slice (.other type body)) : slice = framed type body := by
  cases h with
  | other h _ =>
    obtain rfl := hslice.length_eq h.announces
    rw [List.take_length]
    exact h.eq_framed

/-- Only a report can be too long to be written. -/
theorem ServerOrder.exists_encode_iff (order : ServerOrder) :
    (∃ pdu, order.encode = .ok pdu) ↔
      ∀ report, order = .launchReport report → Text.Utf16.size report.program ≤ maxPathSize := by
  cases order with
  | launchReport report =>
    simp only [ServerOrder.encode, report.encode_eq, ServerOrder.launchReport.injEq, forall_eq']
    constructor
    · rintro ⟨pdu, hencode⟩
      split at hencode
      · assumption
      · cases hencode
    · intro hfits
      exact ⟨_, if_pos hfits⟩
  | _ => simp [ServerOrder.encode]

/-- Whatever was read in a slice and can be written is written as it was there, less what the slice
has beyond it. -/
theorem rewrites_of_decode {slice pdu : Bytes} {order : ServerOrder} (hslice : IsSlice slice)
    (hdecode : ServerOrder.decode slice = .ok order) (hencode : order.encode = .ok pdu) :
    Rewrites slice order pdu := by
  have h := spells_of_decode hdecode
  cases order with
  | handshake order =>
    cases hencode
    exact rewrites_handshake hslice h
  | extendedHandshake order =>
    cases hencode
    exact rewrites_extendedHandshake hslice h
  | launchReport order => exact rewrites_launchReport hslice h hencode
  | other type body =>
    cases hencode
    have hslice' := h.eq_framed_of_other hslice
    exact ⟨hslice' ▸ hdecode, Nat.le_of_eq (congrArg List.length hslice'.symm),
      ⟨fun _ => trivial, fun _ => hslice'.symm⟩⟩

/-- The octets that a header announces are a slice, and they are all that is read. -/
theorem isSlice_take_of_decode {octets : Bytes} {length : Nat} {order : ServerOrder}
    (hlength : announcedLength? octets = some length)
    (hdecode : ServerOrder.decode octets = .ok order) :
    (octets.take length).length = length ∧ IsSlice (octets.take length) ∧
      ServerOrder.decode (octets.take length) = .ok order := by
  obtain ⟨outcome, rest, hnext⟩ := exists_order_iff.mpr fun cause hcause => by
    rw [hdecode] at hcause
    cases hcause
  obtain ⟨houtcome, -⟩ := decode_of_order hnext
  obtain ⟨slice, rfl, hslice, hread⟩ := isSlice_of_nextOrder hnext
  -- The slice announces its own length, also with the rest behind it.
  obtain ⟨type, hwhole⟩ := id hslice
  have hannounced := (announcedLength?_eq_some_iff _ _).mpr ⟨type, hwhole.announces.append rest⟩
  obtain rfl : length = slice.length := Option.some.inj (hlength.symm.trans hannounced)
  rw [List.take_left]
  exact ⟨rfl, hslice, by rw [← hread, houtcome, hdecode]⟩

/-! ### The property -/

/-- What is read can be written again, unless it is a report on a program that is longer than the
writer's limit. It is in normal form, and it is read from the PDU that is written as well. That PDU
is no longer than what was read, and it is the same octets exactly if these were tight. An order
without a meaning keeps all of them. To write such an order is to put it together again, and no
program does so; the parts on writing are about handshakes and reports. -/
theorem encode_decode_tight {octets : Bytes} {length : Nat} {order : ServerOrder}
    (hlength : announcedLength? octets = some length)
    (hdecode : ServerOrder.decode octets = .ok order) :
    (∀ report, order = .launchReport report →
      report.program.toList.getLast? ≠ some '\x00' ∧
      ∀ n, report.result = .unknown n → ∀ result ∈ LaunchResult.named, result.code ≠ n) ∧
    ((∃ pdu, order.encode = .ok pdu) ↔
      ∀ report, order = .launchReport report → Text.Utf16.size report.program ≤ 520) ∧
    (∀ report, order = .launchReport report → 520 < Text.Utf16.size report.program →
      order.encode = .error (.tooLong "program" (Text.Utf16.size report.program) 520)) ∧
    (∀ pdu, order.encode = .ok pdu →
      ServerOrder.decode pdu = .ok order ∧ pdu.length ≤ length ∧
        (pdu = octets.take length ↔ IsTight (octets.take length) order)) ∧
    ∀ type body, order = .other type body →
      octets.take length = le16 type ++ le16 (.ofNat length) ++ body := by
  obtain ⟨hsize, hslice, hread⟩ := isSlice_take_of_decode hlength hdecode
  -- The slice is all that matters, for the octets behind it are not read.
  have hspells := spells_of_decode hread
  refine ⟨?_, ?_, ?_, ?_, ?_⟩
  · rintro report rfl
    exact report.normal_eq_self_iff.mp hspells.normal_eq
  · exact order.exists_encode_iff
  · rintro report rfl hlong
    have hunfit : ¬Text.Utf16.size report.program ≤ maxPathSize := Nat.not_le.mpr hlong
    rw [ServerOrder.encode, report.encode_eq, if_neg hunfit]
    rfl
  · intro pdu hencode
    have h := rewrites_of_decode hslice hread hencode
    exact ⟨h.decode_eq, hsize ▸ h.length_le, h.eq_iff⟩
  · rintro type body rfl
    have hframed := hspells.eq_framed_of_other hslice
    have hbody : length = headerSize + body.length := by
      rw [← hsize, hframed, length_framed, headerSize]
    rw [hframed, hbody]
    rfl

/-- A report with padding, a NUL behind its program, an octet behind that, and an octet that belongs
to the next order. -/
def looseOctets : Bytes :=
  [0x80, 0, 21, 0, 8, 0, 5, 0, 2, 0, 0, 0, 0xAA, 0xBB, 4, 0, 0x61, 0, 0, 0, 0xCC, 5]

/-- The report that is read in them. -/
def looseReport : LaunchReport := ⟨⟨8⟩, .fileNotFound, 2, "a"⟩

/-- The report is written again in fewer octets. -/
theorem encode_decode_looseReport :
    announcedLength? looseOctets = some 21 ∧
      ServerOrder.decode looseOctets = .ok (.launchReport looseReport) ∧
      ∃ pdu, looseReport.encode = .ok pdu ∧
        ServerOrder.decode pdu = .ok (.launchReport looseReport) ∧ pdu.length ≤ 21 ∧
        pdu ≠ looseOctets.take 21 := by
  have hlength : announcedLength? looseOctets = some 21 := rfl
  have hdecode : ServerOrder.decode looseOctets = .ok (.launchReport looseReport) := by rfl
  obtain ⟨-, hwritten, -, hrewrites, -⟩ := encode_decode_tight hlength hdecode
  obtain ⟨pdu, hencode⟩ := hwritten.mpr fun report hreport => by
    cases hreport
    decide
  obtain ⟨hread, hle, htight⟩ := hrewrites pdu hencode
  refine ⟨hlength, hdecode, pdu, hencode, hread, hle, fun heq => ?_⟩
  -- The padding is enough to make the octets differ.
  obtain ⟨size, -, -, hpadding, -⟩ := htight.mp heq
  exact absurd hpadding (by decide)

end RemotePrograms
