import RemotePrograms.Proofs.Order.RoundTrip
import RemotePrograms.Proofs.Order.Slices

/-!
# `RemotePrograms.Proofs.Order.Delimited`: PDUs that say themselves where they end

The length in the header of a PDU has 16 bits, and so have most of the sizes inside its body. A
number that does not fit would be cut off without a word. `Handshake.encode` and the other writers
check only the sizes of single texts, so it has to be shown that those limits are enough.

`WrittenOrder` is an order that one of the two sides writes. Its PDUs are described by offsets:
`size16?` and `size32?` read a number where it stands, and `WrittenOrder.Measures` says which
numbers have to stand in a PDU besides its own length. `Framable` is the bound on a body from which
the length in the header follows, and each writer has one lemma that says its bodies are within it.

What follows for a stream is in `pdus_delimited`. However many PDUs stand one behind the other, the
reader finds the border between any two of them.
-/

set_option autoImplicit false

namespace RemotePrograms

/-! ### What is written -/

/-- An order that one of the two sides writes. -/
inductive WrittenOrder where
  | client (order : ClientOrder)
  | extendedHandshake (order : ExtendedHandshake)
  | launchReport (order : LaunchReport)

/-- The number in the 16-bit field at an offset. -/
def size16? (octets : Bytes) (i : Nat) : Option Nat :=
  (field16? octets i).map UInt16.toNat

/-- The number in the 32-bit field at an offset. -/
def size32? (octets : Bytes) (i : Nat) : Option Nat :=
  (field32? octets i).map UInt32.toNat

namespace WrittenOrder

/-- The PDUs of an order. -/
def encode : WrittenOrder → Except Error (List Bytes)
  | client order => order.encode
  | extendedHandshake order => .ok [order.encode]
  | launchReport order => order.encode.map fun pdu => [pdu]

/-- The order puts this PDU onto the wire. -/
def Writes (order : WrittenOrder) (pdu : Bytes) : Prop :=
  ∃ pdus, order.encode = .ok pdus ∧ pdu ∈ pdus

/-- The sizes in the body of a PDU are those of the order's texts. A PDU of system parameters has
one only if it carries the high-contrast setting, and that one counts the terminator. -/
def Measures (pdu : Bytes) : WrittenOrder → Prop
  | client (.launch order) =>
    size16? pdu 6 = some (Text.Utf16.size order.program) ∧
      size16? pdu 8 = some (Text.Utf16.size order.workingDir) ∧
      size16? pdu 10 = some (Text.Utf16.size order.arguments)
  | client (.systemParameters order) =>
    size32? pdu 4 = some 0x43 →
      size32? pdu 12 = some (Text.Utf16.size order.highContrast.colorScheme + 2)
  | launchReport order => size16? pdu 14 = some (Text.Utf16.size order.program)
  | client (.handshake _) | client (.clientStatus _) | extendedHandshake _ => True

/-- What a reader makes of a PDU of an order. Orders that only a client sends have no meaning to
it, so their type and their body stay as they are. -/
def readBack (pdu : Bytes) : WrittenOrder → ServerOrder
  | client (.handshake order) => .handshake order
  | client (.clientStatus _) => .other 0x000B (pdu.drop 4)
  | client (.systemParameters _) => .other 0x0003 (pdu.drop 4)
  | client (.launch _) => .other 0x0001 (pdu.drop 4)
  | extendedHandshake order => .extendedHandshake order
  | launchReport order => .launchReport order.normal

/-- A PDU that has all its sizes right, its own length first of all. -/
structure Delimits (order : WrittenOrder) (pdu : Bytes) : Prop where
  length_eq : size16? pdu 2 = some pdu.length
  length_le : pdu.length ≤ 65535
  measures : order.Measures pdu
  decode_eq : ServerOrder.decode pdu = .ok (order.readBack pdu)

end WrittenOrder

/-! ### The header -/

/-- A body that leaves room for the header. -/
def Framable (body : Bytes) : Prop :=
  body.length ≤ 65531

section Framed

variable (type : UInt16) (body : Bytes)

/-- A header is four octets. -/
@[simp] theorem length_framed : (framed type body).length = 4 + body.length := by
  simp only [framed, List.length_append, length_le16]

variable {type : UInt16} {body : Bytes}

/-- The length in the header of a body that leaves room for it is exact. -/
theorem size16?_framed (h : Framable body) :
    size16? (framed type body) 2 = some (framed type body).length := by
  have hlength : (UInt16.ofNat (headerSize + body.length)).toNat = 4 + body.length := by
    have hbody : body.length ≤ 65531 := h
    rw [UInt16.toNat_ofNat', headerSize]
    omega
  rw [length_framed, ← hlength]
  show some (word16 _ _).toNat = _
  rw [word16_le16]

/-- A length that fits its field is at most 65535. -/
theorem length_framed_le (h : Framable body) : (framed type body).length ≤ 65535 := by
  have hbody : body.length ≤ 65531 := h
  rw [length_framed]
  omega

/-- A PDU is read by its type from the body behind its header. -/
theorem decode_framed_of_framable (h : Framable body) :
    ServerOrder.decode (framed type body) = ServerOrder.decodeBody type body := by
  have hbody : body.length ≤ 65531 := h
  refine ServerOrder.decode_framed type body ?_
  rw [headerSize, maxOrderLength]
  omega

end Framed

/-! ### Many at once -/

/-- Something is made of every member of a list exactly if nothing fails, and then it is made of
them one by one. -/
theorem mapM_eq_ok_iff {α β : Type} {f : α → Except Error β} {xs : List α} {ys : List β} :
    xs.mapM f = .ok ys ↔ xs.map f = ys.map .ok := by
  induction xs generalizing ys with
  | nil => cases ys <;> simp [pure, Except.pure]
  | cons x xs ih =>
    rw [List.mapM_cons]
    cases hx : f x with
    | error cause => cases ys <;> simp [hx, bind, Except.bind]
    | ok y =>
      cases hxs : xs.mapM f with
      | error cause =>
        -- What fails on the later members is not made of them one by one.
        have hnone : ∀ later : List β, xs.map f ≠ later.map .ok := by
          intro later hlater
          rw [ih.mpr hlater] at hxs
          cases hxs
        cases ys <;> simp [hx, hnone, bind, Except.bind]
      | ok later =>
        have hlater := ih.mp hxs
        cases ys with
        | nil => simp [bind, Except.bind, pure, Except.pure]
        | cons y' later' =>
          have hinj : ∀ first second : List β,
              first.map (.ok : β → Except Error β) = second.map .ok ↔ first = second :=
            fun first second => List.map_inj_right fun _ _ => Except.ok.inj
          simp [hx, hlater, bind, Except.bind, pure, Except.pure, hinj]

/-- What fails on a list fails on one of its members. -/
theorem exists_of_mapM_eq_error {α β : Type} {f : α → Except Error β} {xs : List α}
    {cause : Error} (h : xs.mapM f = .error cause) : ∃ x ∈ xs, f x = .error cause := by
  induction xs with
  | nil => cases h
  | cons x xs ih =>
    rw [List.mapM_cons] at h
    cases hx : f x with
    | error cause' =>
      rw [hx] at h
      cases h
      exact ⟨x, List.mem_cons_self, hx⟩
    | ok y =>
      cases hxs : xs.mapM f with
      | error cause' =>
        rw [hx, hxs] at h
        cases h
        obtain ⟨x', hmem, hx'⟩ := ih hxs
        exact ⟨x', List.mem_cons_of_mem x hmem, hx'⟩
      | ok later =>
        rw [hx, hxs] at h
        cases h

/-! ### Texts with a limit -/

/-- A text is written in full, or it is reported with its size. -/
theorem boundedText_eq (field text : String) (max : Nat) :
    boundedText field text max
      = if Text.Utf16.size text ≤ max then .ok (Text.Utf16.encode text)
        else .error (.tooLong field (Text.Utf16.size text) max) := by
  rw [boundedText, Text.Utf16.length_encode]

/-- The body of a launch. -/
def Launch.body (order : Launch) : Bytes :=
  le16 order.flags.bits ++ sizeField (Text.Utf16.encode order.program)
    ++ sizeField (Text.Utf16.encode order.workingDir)
    ++ sizeField (Text.Utf16.encode order.arguments) ++ Text.Utf16.encode order.program
    ++ Text.Utf16.encode order.workingDir ++ Text.Utf16.encode order.arguments

/-- The texts of a launch fit into their fields. -/
structure Launch.Fits (order : Launch) : Prop where
  program : Text.Utf16.size order.program ≤ maxPathSize
  workingDir : Text.Utf16.size order.workingDir ≤ maxPathSize
  arguments : Text.Utf16.size order.arguments ≤ maxArgumentsSize

/-- The body of a launch has eight octets of flags and sizes in front of its texts. -/
theorem Launch.length_body (order : Launch) :
    order.body.length = 8 + Text.Utf16.size order.program + Text.Utf16.size order.workingDir
      + Text.Utf16.size order.arguments := by
  simp only [body, sizeField, List.length_append, length_le16, Text.Utf16.length_encode]

/-- A launch is written if its texts fit. Otherwise the first one that does not is reported. -/
theorem Launch.encode_eq (order : Launch) :
    order.encode
      = if Text.Utf16.size order.program ≤ maxPathSize then
          if Text.Utf16.size order.workingDir ≤ maxPathSize then
            if Text.Utf16.size order.arguments ≤ maxArgumentsSize then
              .ok (framed OrderType.launch.wire order.body)
            else .error (.tooLong "arguments" (Text.Utf16.size order.arguments) maxArgumentsSize)
          else .error (.tooLong "working directory" (Text.Utf16.size order.workingDir) maxPathSize)
        else .error (.tooLong "program" (Text.Utf16.size order.program) maxPathSize) := by
  unfold encode
  rw [boundedText_eq, boundedText_eq, boundedText_eq]
  -- The texts are checked in this order, so the first failure is the one reported.
  by_cases hprogram : Text.Utf16.size order.program ≤ maxPathSize
  · rw [if_pos hprogram, if_pos hprogram]
    by_cases hworkingDir : Text.Utf16.size order.workingDir ≤ maxPathSize
    · rw [if_pos hworkingDir, if_pos hworkingDir]
      by_cases harguments : Text.Utf16.size order.arguments ≤ maxArgumentsSize
      · rw [if_pos harguments, if_pos harguments]
        rfl
      · rw [if_neg harguments, if_neg harguments]
        rfl
    · rw [if_neg hworkingDir, if_neg hworkingDir]
      rfl
  · rw [if_neg hprogram, if_neg hprogram]
    rfl

/-- Only a launch whose texts fit is written. -/
theorem Launch.of_encode_eq_ok {order : Launch} {pdu : Bytes} (h : order.encode = .ok pdu) :
    order.Fits ∧ pdu = framed OrderType.launch.wire order.body := by
  rw [order.encode_eq] at h
  split at h
  · rename_i hprogram
    split at h
    · rename_i hworkingDir
      split at h
      · rename_i harguments
        cases h
        exact ⟨⟨hprogram, hworkingDir, harguments⟩, rfl⟩
      · cases h
    · cases h
  · cases h

/-- The size of a text that is not too long for the field is read as it is. -/
theorem toNat_sizeField {text : String} (h : Text.Utf16.size text ≤ 65535) :
    (word16 (UInt16.ofNat (Text.Utf16.encode text).length).toUInt8
      (UInt16.ofNat (Text.Utf16.encode text).length / 0x100).toUInt8).toNat
        = Text.Utf16.size text := by
  rw [word16_le16, Text.Utf16.length_encode]
  exact UInt16.toNat_ofNat_of_lt' (Nat.lt_succ_of_le h)

/-! ### The orders one by one -/

namespace WrittenOrder

/-- The PDU of a handshake has its length right. -/
theorem delimits_handshake (order : Handshake) :
    (client (.handshake order)).Delimits order.encode := by
  have hframable : Framable (le32 order.buildNumber) := by simp [Framable]
  exact ⟨size16?_framed hframable, length_framed_le hframable, trivial, order.decode_encode⟩

/-- The PDU of an extended handshake has its length right. -/
theorem delimits_extendedHandshake (order : ExtendedHandshake) :
    (extendedHandshake order).Delimits order.encode := by
  have hframable : Framable (le32 order.buildNumber ++ le32 order.flags.bits) := by
    simp [Framable]
  exact ⟨size16?_framed hframable, length_framed_le hframable, trivial, order.decode_encode⟩

/-- The PDU of a client status has its length right. -/
theorem delimits_clientStatus (order : ClientStatus) :
    (client (.clientStatus order)).Delimits order.encode := by
  have hframable : Framable (le32 order.flags.bits) := by simp [Framable]
  refine ⟨size16?_framed hframable, length_framed_le hframable, trivial, ?_⟩
  rw [ClientStatus.encode, decode_framed_of_framable hframable]
  rfl

/-- A launch that is written has all its sizes right, for the limits of its texts are far below
what the fields hold. -/
theorem delimits_launch {order : Launch} {pdu : Bytes} (h : order.encode = .ok pdu) :
    (client (.launch order)).Delimits pdu := by
  obtain ⟨hfits, rfl⟩ := Launch.of_encode_eq_ok h
  have hprogram := hfits.program
  have hworkingDir := hfits.workingDir
  have harguments := hfits.arguments
  simp only [maxPathSize, maxArgumentsSize] at hprogram hworkingDir harguments
  have hframable : Framable order.body := by
    rw [Framable, order.length_body]
    omega
  -- The three fields stand behind the header and the flags.
  refine ⟨size16?_framed hframable, length_framed_le hframable,
    ⟨congrArg some (toNat_sizeField (by omega)), congrArg some (toNat_sizeField (by omega)),
      congrArg some (toNat_sizeField (by omega))⟩, ?_⟩
  rw [decode_framed_of_framable hframable]
  rfl

/-- The PDU of a report has its length and the size of its program right. -/
theorem delimits_launchReport {order : LaunchReport} {pdu : Bytes} (h : order.encode = .ok pdu) :
    (launchReport order).Delimits pdu := by
  rw [order.encode_eq] at h
  split at h
  · rename_i hfits
    cases h
    rw [maxPathSize] at hfits
    have hlength : (Text.Utf16.encode order.program).length ≤ maxPathSize := by
      rw [Text.Utf16.length_encode, maxPathSize]
      exact hfits
    have hframable : Framable (order.body (Text.Utf16.encode order.program)) := by
      rw [Framable, order.length_body, Text.Utf16.length_encode]
      omega
    refine ⟨size16?_framed hframable, length_framed_le hframable,
      congrArg some (toNat_sizeField (by omega)), ?_⟩
    rw [decode_framed_of_framable hframable]
    exact order.decodeBody_body hlength
  · cases h

/-- The octets of a parameter's value: few, or those of a high-contrast setting. -/
theorem encodeValue_cases {order : SystemParameters} {param : Parameter} {value : Bytes}
    (h : param.encodeValue order = .ok value) :
    (param ≠ .highContrast ∧ value.length ≤ 8) ∨
      (param = .highContrast ∧
        Text.Utf16.size order.highContrast.colorScheme ≤ maxSchemeSize ∧
        value = le32 order.highContrast.flags.bits
          ++ le32 (.ofNat ((Text.Utf16.encode order.highContrast.colorScheme).length + 2))
          ++ Text.Utf16.encode order.highContrast.colorScheme ++ [0, 0]) := by
  cases param with
  | highContrast =>
    refine .inr ⟨rfl, ?_⟩
    simp only [Parameter.encodeValue, HighContrast.encode, boundedText_eq] at h
    split at h
    · rename_i hfits
      cases h
      exact ⟨hfits, rfl⟩
    · cases h
  | _ =>
    cases h
    exact .inl ⟨by simp, by simp [encodeSwitch, Rect.encode]⟩

/-- No other parameter has the number of the high-contrast setting. -/
theorem eq_highContrast_of_wire {param : Parameter} (h : param.wire.toNat = 0x43) :
    param = .highContrast := by
  cases param with
  | highContrast => rfl
  | _ => simp [Parameter.wire] at h

/-- A PDU of system parameters carries a value of a fixed size, or the high-contrast setting, whose
text has a limit. -/
theorem delimits_parameter {order : SystemParameters} {param : Parameter} {pdu : Bytes}
    (h : param.encode order = .ok pdu) :
    (client (.systemParameters order)).Delimits pdu := by
  obtain ⟨value, hvalue, rfl⟩ : ∃ value, param.encodeValue order = .ok value ∧
      framed OrderType.systemParameters.wire (le32 param.wire ++ value) = pdu := by
    unfold Parameter.encode at h
    cases hvalue : param.encodeValue order with
    | error cause =>
      rw [hvalue] at h
      cases h
    | ok value =>
      rw [hvalue] at h
      exact ⟨value, rfl, Except.ok.inj h⟩
  have hwire : ∀ later, size32? (framed OrderType.systemParameters.wire
      (le32 param.wire ++ later)) 4 = some param.wire.toNat := by
    intro later
    show some (word32 _ _ _ _).toNat = _
    rw [word32_le32]
  have hother : ∀ hframable : Framable (le32 param.wire ++ value),
      ServerOrder.decode (framed OrderType.systemParameters.wire (le32 param.wire ++ value))
        = .ok (.other 0x0003 (le32 param.wire ++ value)) := by
    intro hframable
    rw [decode_framed_of_framable hframable]
    rfl
  rcases encodeValue_cases hvalue with ⟨hparam, hshort⟩ | ⟨rfl, hfits, rfl⟩
  · have hframable : Framable (le32 param.wire ++ value) := by
      simp only [Framable, List.length_append, length_le32]
      omega
    refine ⟨size16?_framed hframable, length_framed_le hframable, fun hsize => ?_,
      hother hframable⟩
    -- A short value is not that of the high-contrast setting, so it holds no size.
    rw [hwire] at hsize
    exact absurd (eq_highContrast_of_wire (Option.some.inj hsize)) hparam
  · rw [maxSchemeSize] at hfits
    have hframable : Framable (le32 Parameter.highContrast.wire
        ++ (le32 order.highContrast.flags.bits
          ++ le32 (.ofNat ((Text.Utf16.encode order.highContrast.colorScheme).length + 2))
          ++ Text.Utf16.encode order.highContrast.colorScheme ++ [0, 0])) := by
      simp only [Framable, List.length_append, length_le32, Text.Utf16.length_encode,
        List.length_cons, List.length_nil]
      omega
    refine ⟨size16?_framed hframable, length_framed_le hframable, fun _ => ?_, hother hframable⟩
    show some (word32 _ _ _ _).toNat = _
    rw [word32_le32, Text.Utf16.length_encode]
    exact congrArg some (UInt32.toNat_ofNat_of_lt' (by show _ < 4294967296; omega))

/-- What comes out of a list is made of its members. -/
theorem exists_of_mem_mapM {order : SystemParameters} {pdu : Bytes} {params : List Parameter}
    {pdus : List Bytes} (h : params.mapM (Parameter.encode order) = .ok pdus) (hmem : pdu ∈ pdus) :
    ∃ param, Parameter.encode order param = .ok pdu := by
  have hmem' : Except.ok pdu ∈ params.map (Parameter.encode order) := by
    rw [mapM_eq_ok_iff.mp h]
    exact List.mem_map_of_mem hmem
  obtain ⟨param, -, hparam⟩ := List.mem_map.mp hmem'
  exact ⟨param, hparam⟩

/-- Whatever one of the two sides puts onto the wire has its sizes right. -/
theorem Writes.delimits {order : WrittenOrder} {pdu : Bytes} (h : order.Writes pdu) :
    order.Delimits pdu := by
  obtain ⟨pdus, hencode, hmem⟩ := h
  match order with
  | extendedHandshake order =>
    cases hencode
    rw [List.mem_singleton.mp hmem]
    exact delimits_extendedHandshake order
  | client (.handshake order) =>
    cases hencode
    rw [List.mem_singleton.mp hmem]
    exact delimits_handshake order
  | client (.clientStatus order) =>
    cases hencode
    rw [List.mem_singleton.mp hmem]
    exact delimits_clientStatus order
  | client (.systemParameters order) =>
    -- Each PDU of an update is that of one parameter.
    obtain ⟨param, hparam⟩ := exists_of_mem_mapM hencode hmem
    exact delimits_parameter hparam
  | client (.launch order) =>
    cases hlaunch : order.encode with
    | error cause =>
      simp [encode, ClientOrder.encode, hlaunch, Except.map] at hencode
    | ok launch =>
      simp only [encode, ClientOrder.encode, hlaunch, Except.map, Except.ok.injEq] at hencode
      rw [← hencode] at hmem
      rw [List.mem_singleton.mp hmem]
      exact delimits_launch hlaunch
  | launchReport order =>
    cases hreport : order.encode with
    | error cause =>
      simp [encode, hreport, Except.map] at hencode
    | ok report =>
      simp only [encode, hreport, Except.map, Except.ok.injEq] at hencode
      rw [← hencode] at hmem
      rw [List.mem_singleton.mp hmem]
      exact delimits_launchReport hreport

/-- A PDU with its sizes right is a slice of a stream. -/
theorem Delimits.isSlice {order : WrittenOrder} {pdu : Bytes} (h : order.Delimits pdu) :
    IsSlice pdu := by
  obtain ⟨size, hsize, hlength⟩ := Option.map_eq_some_iff.mp h.length_eq
  have hfour : 4 ≤ pdu.length := le_length_of_field16? hsize
  obtain ⟨type, htype⟩ := exists_field16? pdu 0 (by omega)
  exact ⟨type, ⟨htype, h.length_eq⟩, hfour, Nat.le_refl _⟩

end WrittenOrder

/-! ### Streams of PDUs -/

/-- Whatever is written says itself where it ends. The length in the header of a PDU is that of the
PDU, and the sizes in its body are those of the texts, so none of them was cut off. A stream of
PDUs that anybody wrote therefore falls apart into the same PDUs again, with nothing left over. Each
of them gives one order: what only a client sends keeps its type and its body, and the rest is read
as it was meant. -/
theorem pdus_delimited :
    (∀ (order : WrittenOrder) (pdu : Bytes), order.Writes pdu →
      size16? pdu 2 = some pdu.length ∧ pdu.length ≤ 65535 ∧ order.Measures pdu) ∧
    ∀ written : List (WrittenOrder × Bytes), (∀ w ∈ written, w.1.Writes w.2) →
      Cutting.feed {} (written.map Prod.snd).flatten
        = ⟨written.map fun w => .ok (w.1.readBack w.2), [], false⟩ := by
  refine ⟨fun order pdu hwrites => ?_, fun written hwritten => ?_⟩
  · have hdelimits := hwrites.delimits
    exact ⟨hdelimits.length_eq, hdelimits.length_le, hdelimits.measures⟩
  · have hslices : ∀ slice ∈ written.map Prod.snd, IsSlice slice := by
      intro slice hslice
      obtain ⟨w, hw, rfl⟩ := List.mem_map.mp hslice
      exact (hwritten w hw).delimits.isSlice
    have hread : (written.map Prod.snd).map ServerOrder.decode
        = written.map fun w => .ok (w.1.readBack w.2) := by
      rw [List.map_map]
      refine List.map_congr_left fun w hw => ?_
      exact (hwritten w hw).delimits.decode_eq
    -- There is no tail behind the last PDU.
    have hempty : Cutting.cutAll [] = {} := Cutting.cutAll_of_waiting rfl
    have hcut := Cutting.cutAll_flatten_append hslices []
    rw [List.append_nil, hread, hempty] at hcut
    show Cutting.cutAll (written.map Prod.snd).flatten = _
    rw [hcut]
    simp only [Cutting.behind, List.append_nil]

section Scheme

/-- An update that carries the high-contrast setting and a swapped mouse button, under a mask with
bits that have no meaning. -/
def schemeUpdate : SystemParameters :=
  ⟨⟨0xFFFFFF88⟩, false, false, false, true, ⟨⟨0x80⟩, "😀"⟩, ⟨0, 0, 0, 0⟩⟩

/-- The PDU of its high-contrast setting. The size of the scheme counts the terminator. -/
def schemePdu : Bytes :=
  [3, 0, 22, 0, 0x43, 0, 0, 0, 0x80, 0, 0, 0, 6, 0, 0, 0, 0x3D, 0xD8, 0, 0xDE, 0, 0]

/-- The PDU of its swapped mouse button. -/
def buttonPdu : Bytes :=
  [3, 0, 9, 0, 0x21, 0, 0, 0, 1]

/-- A launch with every flag set. -/
def smileyLaunch : Launch :=
  ⟨⟨0xFFFF⟩, "a", "", "😀"⟩

/-- The PDU of that launch, in which the empty working directory has the size zero. -/
def smileyPdu : Bytes :=
  [1, 0, 18, 0, 0xFF, 0xFF, 2, 0, 0, 0, 4, 0, 0x61, 0, 0x3D, 0xD8, 0, 0xDE]

/-- The two PDUs of an update and the one of a launch are three orders. -/
theorem pdus_delimited_scheme :
    (WrittenOrder.client (.systemParameters schemeUpdate)).Writes schemePdu ∧
      (WrittenOrder.client (.systemParameters schemeUpdate)).Writes buttonPdu ∧
      (WrittenOrder.client (.launch smileyLaunch)).Writes smileyPdu ∧
      size32? schemePdu 12 = some 6 ∧
      Cutting.feed {} (schemePdu ++ buttonPdu ++ smileyPdu)
        = ⟨[.ok (.other 3 (schemePdu.drop 4)), .ok (.other 3 (buttonPdu.drop 4)),
            .ok (.other 1 (smileyPdu.drop 4))], [], false⟩ := by
  have hscheme : (WrittenOrder.client (.systemParameters schemeUpdate)).Writes schemePdu :=
    ⟨[schemePdu, buttonPdu], by rfl, by decide⟩
  have hbutton : (WrittenOrder.client (.systemParameters schemeUpdate)).Writes buttonPdu :=
    ⟨[schemePdu, buttonPdu], by rfl, by decide⟩
  have hsmiley : (WrittenOrder.client (.launch smileyLaunch)).Writes smileyPdu :=
    ⟨[smileyPdu], by rfl, by decide⟩
  have hsize := (pdus_delimited.1 _ _ hscheme).2.2 (by decide)
  refine ⟨hscheme, hbutton, hsmiley, hsize, ?_⟩
  refine pdus_delimited.2 [(.client (.systemParameters schemeUpdate), schemePdu),
    (.client (.systemParameters schemeUpdate), buttonPdu),
    (.client (.launch smileyLaunch), smileyPdu)] fun w hw => ?_
  simp only [List.mem_cons, List.not_mem_nil, or_false] at hw
  rcases hw with rfl | rfl | rfl
  · exact hscheme
  · exact hbutton
  · exact hsmiley

end Scheme

end RemotePrograms
