import RemotePrograms.Order.Decode
import RemotePrograms.Proofs.Text.Utf16

/-!
# `RemotePrograms.Proofs.Order.Grammar`: which octets are an order of a server

`ServerOrder.decode` takes octets off the front of a list. The format of an order is stated here
by offsets instead: `field16?` and `field32?` read a field where it stands, and only if all its
octets are there. On them rest three descriptions of the octets that do not mention the decoder:

* `IsOrder`: the conditions under which the octets start with an order at all.
* `Spells octets order`: which order that is, field by field.
* `Fault octets cause`: the first of the conditions that fails, with its figures.

`decode_grammar` says that the decoder agrees with all three, and that nothing behind the
announced length plays a part.
-/

set_option autoImplicit false

namespace RemotePrograms

/-! ### The format by offsets -/

/-- The 16-bit field at an offset, if both of its octets are there. -/
def field16? (octets : Bytes) (i : Nat) : Option UInt16 :=
  match octets[i]?, octets[i + 1]? with
  | some a, some b => some (word16 a b)
  | _, _ => none

/-- The 32-bit field at an offset, if all four of its octets are there. -/
def field32? (octets : Bytes) (i : Nat) : Option UInt32 :=
  match octets[i]?, octets[i + 1]?, octets[i + 2]?, octets[i + 3]? with
  | some a, some b, some c, some d => some (word32 a b c d)
  | _, _, _, _ => none

/-- The octets start with a header of this type that announces this length. -/
def Announces (octets : Bytes) (type : UInt16) (length : Nat) : Prop :=
  field16? octets 0 = some type ∧ (field16? octets 2).map UInt16.toNat = some length

/-- The octets start with a header, and hold all that it announces. -/
structure IsWhole (octets : Bytes) (type : UInt16) (length : Nat) : Prop where
  announces : Announces octets type length
  four_le : 4 ≤ length
  le_size : length ≤ octets.length

/-- The octets of the program in a server's report. -/
def programOctets (octets : Bytes) (size : Nat) : Bytes :=
  (octets.drop 16).take size

/-- The name and the size of the part of a body that has to be there, for the types that have
one. -/
def fixedPart? (type : UInt16) : Option (String × Nat) :=
  if type = 0x0005 then some ("handshake", 4)
  else if type = 0x0013 then some ("handshake ex", 8)
  else if type = 0x0080 then some ("exec result", 12)
  else none

/-- The octets start with an order: what the header announces is there, the body has its fixed
part, and the program of a report fits into the body and spells a text. -/
def IsOrder (octets : Bytes) : Prop :=
  ∃ type length, IsWhole octets type length ∧
    (type = 0x0005 → 4 ≤ length - 4) ∧
    (type = 0x0013 → 8 ≤ length - 4) ∧
    (type = 0x0080 → 12 ≤ length - 4 ∧
      ∃ size, field16? octets 14 = some size ∧ size.toNat ≤ length - 16 ∧
        Text.Utf16.IsText (programOctets octets size.toNat))

/-- The octets start with this order. -/
inductive Spells (octets : Bytes) : ServerOrder → Prop where
  | handshake {length : Nat} {build : UInt32} :
      IsWhole octets 0x0005 length → 8 ≤ length →
      field32? octets 4 = some build →
      Spells octets (.handshake ⟨build⟩)
  | extendedHandshake {length : Nat} {build flags : UInt32} :
      IsWhole octets 0x0013 length → 12 ≤ length →
      field32? octets 4 = some build →
      field32? octets 8 = some flags →
      Spells octets (.extendedHandshake ⟨build, ⟨flags⟩⟩)
  /-- The program's octets spell the program and NULs behind it, of which none is kept. -/
  | launchReport {length nuls : Nat} {flags code size : UInt16} {raw : UInt32}
      {text program : String} :
      IsWhole octets 0x0080 length → 16 ≤ length →
      field16? octets 4 = some flags →
      field16? octets 6 = some code →
      field32? octets 8 = some raw →
      field16? octets 14 = some size → 16 + size.toNat ≤ length →
      programOctets octets size.toNat = Text.Utf16.encode text →
      text.toList = program.toList ++ List.replicate nuls '\x00' →
      program.toList.getLast? ≠ some '\x00' →
      Spells octets (.launchReport ⟨⟨flags⟩, .ofCode code, raw, program⟩)
  /-- An order without a meaning keeps all its octets behind the header. -/
  | other {type : UInt16} {length : Nat} :
      IsWhole octets type length → fixedPart? type = none →
      Spells octets (.other type ((octets.take length).drop 4))

/-- The first condition on an order that the octets fail. Each case has the earlier ones behind
it: a fault in the body presumes that the order is whole. -/
inductive Fault (octets : Bytes) : Error → Prop where
  | header : octets.length < 4 →
      Fault octets (.truncated "order header" 4 octets.length)
  | length {type : UInt16} {length : Nat} : Announces octets type length → length < 4 →
      Fault octets (.badLength length)
  | body {type : UInt16} {length : Nat} : Announces octets type length → 4 ≤ length →
      octets.length < length →
      Fault octets (.truncated "order body" length octets.length)
  | fixedPart {type : UInt16} {length size : Nat} {what : String} :
      IsWhole octets type length → fixedPart? type = some (what, size) → length - 4 < size →
      Fault octets (.truncated what size (length - 4))
  | program {length : Nat} {size : UInt16} : IsWhole octets 0x0080 length → 16 ≤ length →
      field16? octets 14 = some size → length - 16 < size.toNat →
      Fault octets (.truncated "exec result program" size.toNat (length - 16))
  | text {length : Nat} {size : UInt16} : IsWhole octets 0x0080 length → 16 ≤ length →
      field16? octets 14 = some size → size.toNat ≤ length - 16 →
      ¬Text.Utf16.IsText (programOctets octets size.toNat) →
      Fault octets (.badText "exec result program")

/-! ### Fields -/

/-- A 16-bit field that lies within the octets can be read. -/
theorem exists_field16? (octets : Bytes) (i : Nat) (h : i + 2 ≤ octets.length) :
    ∃ n, field16? octets i = some n := by
  rw [field16?, List.getElem?_eq_getElem (by omega), List.getElem?_eq_getElem (by omega)]
  exact ⟨_, rfl⟩

/-- A 32-bit field that lies within the octets can be read. -/
theorem exists_field32? (octets : Bytes) (i : Nat) (h : i + 4 ≤ octets.length) :
    ∃ n, field32? octets i = some n := by
  rw [field32?, List.getElem?_eq_getElem (by omega), List.getElem?_eq_getElem (by omega),
    List.getElem?_eq_getElem (by omega), List.getElem?_eq_getElem (by omega)]
  exact ⟨_, rfl⟩

/-- A 16-bit field that can be read lies within the octets. -/
theorem le_length_of_field16? {octets : Bytes} {i : Nat} {n : UInt16}
    (h : field16? octets i = some n) : i + 2 ≤ octets.length := by
  rw [field16?] at h
  split at h
  · rename_i a b ha hb
    have := (List.getElem?_eq_some_iff.mp hb).1
    omega
  · cases h

/-- The octet at an offset inside the body of an order. -/
theorem getElem?_body (octets : Bytes) {length i : Nat} (h : i + 4 < length) :
    ((octets.take length).drop 4)[i]? = octets[i + 4]? := by
  rw [List.getElem?_drop, Nat.add_comm 4 i, List.getElem?_take_of_lt h]

/-- A field of the body stands four octets further on in the order. -/
theorem field16?_body (octets : Bytes) {length i : Nat} (h : i + 6 ≤ length) :
    field16? ((octets.take length).drop 4) i = field16? octets (i + 4) := by
  rw [field16?, field16?, getElem?_body octets (by omega), getElem?_body octets (by omega)]

/-- A 32-bit field of the body stands four octets further on in the order. -/
theorem field32?_body (octets : Bytes) {length i : Nat} (h : i + 8 ≤ length) :
    field32? ((octets.take length).drop 4) i = field32? octets (i + 4) := by
  rw [field32?, field32?, getElem?_body octets (by omega), getElem?_body octets (by omega),
    getElem?_body octets (by omega), getElem?_body octets (by omega)]

/-- The body of an order is what its length leaves behind the header. -/
theorem IsWhole.length_body {octets : Bytes} {type : UInt16} {length : Nat}
    (h : IsWhole octets type length) : ((octets.take length).drop 4).length = length - 4 := by
  have := h.le_size
  rw [List.length_drop, List.length_take]
  omega

/-! ### The header -/

/-- Fewer than four octets are no header. -/
theorem header?_of_lt {octets : Bytes} (h : octets.length < 4) : header? octets = none := by
  unfold header?
  split
  · simp only [List.length_cons] at h
    omega
  · rfl

/-- What the header says is what stands at its offsets. -/
theorem header?_eq_some_iff (octets : Bytes) (type : UInt16) (length : Nat) :
    header? octets = some (type, length) ↔ Announces octets type length := by
  unfold header?
  split
  · rename_i a b c d rest
    simp [Announces, field16?]
  · rename_i hshort
    have hlt : octets.length < 4 := by
      match octets with
      | [] | [_] | [_, _] | [_, _, _] => simp
      | a :: b :: c :: d :: rest => exact absurd rfl (hshort a b c d rest)
    constructor
    · intro h
      cases h
    · rintro ⟨-, h⟩
      obtain ⟨n, hn, -⟩ := Option.map_eq_some_iff.mp h
      have := le_length_of_field16? hn
      omega

/-- Four octets are a header, whatever they are. -/
theorem exists_announces {octets : Bytes} (h : 4 ≤ octets.length) :
    ∃ type length, Announces octets type length := by
  obtain ⟨type, htype⟩ := exists_field16? octets 0 (by omega)
  obtain ⟨n, hn⟩ := exists_field16? octets 2 (by omega)
  exact ⟨type, n.toNat, htype, by rw [hn]; rfl⟩

/-- A header takes four octets. -/
theorem Announces.four_le_length {octets : Bytes} {type : UInt16} {length : Nat}
    (h : Announces octets type length) : 4 ≤ octets.length := by
  obtain ⟨n, hn, -⟩ := Option.map_eq_some_iff.mp h.2
  exact le_length_of_field16? hn

/-- What stands behind a header does not change what it announces. -/
theorem Announces.append {octets : Bytes} {type : UInt16} {length : Nat}
    (h : Announces octets type length) (suffix : Bytes) :
    Announces (octets ++ suffix) type length := by
  have hsize := h.four_le_length
  rw [Announces, field16?, field16?] at h ⊢
  rw [List.getElem?_append_left (by omega), List.getElem?_append_left (by omega),
    List.getElem?_append_left (by omega), List.getElem?_append_left (by omega)]
  exact h

/-! ### The decoder, part by part -/

/-- A header that is not all there is the first thing to be missed. -/
theorem decode_of_lt {octets : Bytes} (h : octets.length < 4) :
    ServerOrder.decode octets = .error (.truncated "order header" 4 octets.length) := by
  rw [ServerOrder.decode, header?_of_lt h]
  rfl

/-- The decoder behind a header. -/
theorem Announces.decode_eq {octets : Bytes} {type : UInt16} {length : Nat}
    (h : Announces octets type length) :
    ServerOrder.decode octets
      = if length < 4 then .error (.badLength length)
        else if octets.length < length then
          .error (.truncated "order body" length octets.length)
        else ServerOrder.decodeBody type ((octets.take length).drop 4) := by
  rw [ServerOrder.decode, (header?_eq_some_iff octets type length).mpr h]
  rfl

/-- The decoder on a whole order reads its body. -/
theorem IsWhole.decode_eq {octets : Bytes} {type : UInt16} {length : Nat}
    (h : IsWhole octets type length) :
    ServerOrder.decode octets = ServerOrder.decodeBody type ((octets.take length).drop 4) := by
  rw [h.announces.decode_eq, if_neg (Nat.not_lt.mpr h.four_le),
    if_neg (Nat.not_lt.mpr h.le_size)]

/-- Three types have a fixed part in their bodies. -/
theorem fixedPart?_cases {type : UInt16} {what : String} {size : Nat}
    (h : fixedPart? type = some (what, size)) :
    (type = 0x0005 ∧ what = "handshake" ∧ size = 4) ∨
      (type = 0x0013 ∧ what = "handshake ex" ∧ size = 8) ∨
      (type = 0x0080 ∧ what = "exec result" ∧ size = 12) := by
  unfold fixedPart? at h
  split at h
  · rename_i htype
    cases h
    exact .inl ⟨htype, rfl, rfl⟩
  · split at h
    · rename_i htype
      cases h
      exact .inr (.inl ⟨htype, rfl, rfl⟩)
    · split at h
      · rename_i htype
        cases h
        exact .inr (.inr ⟨htype, rfl, rfl⟩)
      · cases h

/-- A type with a fixed part needs a body that holds it. -/
theorem decodeBody_of_lt {type : UInt16} {what : String} {size : Nat} {body : Bytes}
    (hfixed : fixedPart? type = some (what, size)) (h : body.length < size) :
    ServerOrder.decodeBody type body = .error (.truncated what size body.length) := by
  -- Each reader asks for the octets of its fixed part at once.
  obtain ⟨rfl, rfl, rfl⟩ | ⟨rfl, rfl, rfl⟩ | ⟨rfl, rfl, rfl⟩ := fixedPart?_cases hfixed
  · show (Handshake.decode body).map ServerOrder.handshake = _
    unfold Handshake.decode
    split
    · simp only [List.length_cons] at h
      omega
    · rfl
  · show (ExtendedHandshake.decode body).map ServerOrder.extendedHandshake = _
    unfold ExtendedHandshake.decode
    split
    · simp only [List.length_cons] at h
      omega
    · rfl
  · show (LaunchReport.decode body).map ServerOrder.launchReport = _
    unfold LaunchReport.decode
    split
    · simp only [List.length_cons] at h
      omega
    · rfl

/-- A type without a fixed part has no meaning, and keeps its body. -/
theorem decodeBody_of_none {type : UInt16} (hfixed : fixedPart? type = none) (body : Bytes) :
    ServerOrder.decodeBody type body = .ok (.other type body) := by
  have htype : type ≠ 0x0005 ∧ type ≠ 0x0013 ∧ type ≠ 0x0080 := by
    unfold fixedPart? at hfixed
    refine ⟨?_, ?_, ?_⟩ <;> rintro rfl <;> cases hfixed
  obtain ⟨h₁, h₂, h₃⟩ := htype
  -- A type that is found in the table has the number it was looked up with.
  unfold ServerOrder.decodeBody
  split
  · rename_i hwire
    have := List.find?_some hwire
    simp [OrderType.wire, h₁.symm] at this
  · rename_i hwire
    have := List.find?_some hwire
    simp [OrderType.wire, h₂.symm] at this
  · rename_i hwire
    have := List.find?_some hwire
    simp [OrderType.wire, h₃.symm] at this
  · rfl

/-- A handshake is read from four octets or more. -/
theorem decodeBody_handshake {body : Bytes} (h : 4 ≤ body.length) :
    ∃ build, field32? body 0 = some build ∧
      ServerOrder.decodeBody 0x0005 body = .ok (.handshake ⟨build⟩) := by
  match body, h with
  | a :: b :: c :: d :: _, _ => exact ⟨word32 a b c d, rfl, rfl⟩

/-- An extended handshake is read from eight octets or more. -/
theorem decodeBody_extendedHandshake {body : Bytes} (h : 8 ≤ body.length) :
    ∃ build flags, field32? body 0 = some build ∧ field32? body 4 = some flags ∧
      ServerOrder.decodeBody 0x0013 body = .ok (.extendedHandshake ⟨build, ⟨flags⟩⟩) := by
  match body, h with
  | a :: b :: c :: d :: e :: f :: g :: h :: _, _ =>
    exact ⟨word32 a b c d, word32 e f g h, rfl, rfl, rfl⟩

/-- The body of a report, as far as its program. -/
theorem decodeBody_launchReport {body : Bytes} (h : 12 ≤ body.length) :
    ∃ flags code raw size, field16? body 0 = some flags ∧ field16? body 2 = some code ∧
      field32? body 4 = some raw ∧ field16? body 10 = some size ∧
      ServerOrder.decodeBody 0x0080 body
        = ((decodeProgram size.toNat (body.drop 12)).map fun program =>
            ⟨⟨flags⟩, .ofCode code, raw, program⟩).map .launchReport := by
  match body, h with
  | f₀ :: f₁ :: r₀ :: r₁ :: w₀ :: w₁ :: w₂ :: w₃ :: _ :: _ :: s₀ :: s₁ :: _, _ =>
    exact ⟨word16 f₀ f₁, word16 r₀ r₁, word32 w₀ w₁ w₂ w₃, word16 s₀ s₁, rfl, rfl, rfl, rfl, rfl⟩

/-- The octets behind the fixed part of a report are those from offset 16 on. -/
theorem take_drop_body {octets : Bytes} {length size : Nat} (h : 16 + size ≤ length) :
    (((octets.take length).drop 4).drop 12).take size = programOctets octets size := by
  rw [programOctets, List.drop_drop, List.drop_take, List.take_take]
  congr 1
  omega

/-- A program that spells a text is read without the NULs at its end. -/
theorem decodeProgram_of_eq_encode {octets : Bytes} {size : Nat} {text : String}
    (hsize : size ≤ octets.length) (h : octets.take size = Text.Utf16.encode text) :
    decodeProgram size octets = .ok (Text.Utf16.trimNuls text) := by
  rw [decodeProgram, if_neg (Nat.not_lt.mpr hsize), (Text.Utf16.decode?_eq_some_iff _ text).mpr h]

/-- A program whose octets spell no text is refused. -/
theorem decodeProgram_of_not_isText {octets : Bytes} {size : Nat} (hsize : size ≤ octets.length)
    (h : ¬Text.Utf16.IsText (octets.take size)) :
    decodeProgram size octets = .error (.badText "exec result program") := by
  rw [← Text.Utf16.isSome_decode?_iff, Option.not_isSome_iff_eq_none] at h
  rw [decodeProgram, if_neg (Nat.not_lt.mpr hsize), h]
  rfl

/-- A report behind its header, with the fields at their offsets in the whole order. -/
theorem IsWhole.decode_launchReport {octets : Bytes} {length : Nat}
    (h : IsWhole octets 0x0080 length) (hfixed : 16 ≤ length) :
    ∃ flags code raw size, field16? octets 4 = some flags ∧ field16? octets 6 = some code ∧
      field32? octets 8 = some raw ∧ field16? octets 14 = some size ∧
      ServerOrder.decode octets
        = ((decodeProgram size.toNat (((octets.take length).drop 4).drop 12)).map fun program =>
            ⟨⟨flags⟩, .ofCode code, raw, program⟩).map .launchReport := by
  have hlength : 12 ≤ ((octets.take length).drop 4).length := by
    rw [h.length_body]
    omega
  obtain ⟨flags, code, raw, size, hflags, hcode, hraw, hsize, hbody⟩ :=
    decodeBody_launchReport hlength
  rw [field16?_body octets (by omega)] at hflags hcode hsize
  rw [field32?_body octets (by omega)] at hraw
  exact ⟨flags, code, raw, size, hflags, hcode, hraw, hsize, by rw [h.decode_eq, hbody]⟩

/-- Behind the fixed part of a report there is what its length leaves. -/
theorem IsWhole.length_program {octets : Bytes} {type : UInt16} {length : Nat}
    (h : IsWhole octets type length) :
    (((octets.take length).drop 4).drop 12).length = length - 16 := by
  rw [List.length_drop, h.length_body]
  omega

/-! ### The decoder and the format -/

/-- Octets announce one type and one length. -/
theorem Announces.unique {octets : Bytes} {type type' : UInt16} {length length' : Nat}
    (h : Announces octets type length) (h' : Announces octets type' length') :
    type = type' ∧ length = length' := by
  obtain ⟨htype, hlength⟩ := h
  obtain ⟨htype', hlength'⟩ := h'
  rw [htype] at htype'
  rw [hlength] at hlength'
  exact ⟨Option.some.inj htype', Option.some.inj hlength'⟩

/-- The order that the octets spell is the one that is read. -/
theorem Spells.decode_eq {octets : Bytes} {order : ServerOrder} (h : Spells octets order) :
    ServerOrder.decode octets = .ok order := by
  cases h with
  | @handshake length _ h hlength hbuild =>
    have hbody : 4 ≤ ((octets.take length).drop 4).length := by
      rw [h.length_body]
      omega
    obtain ⟨build, hbuild', hdecode⟩ := decodeBody_handshake hbody
    rw [field32?_body octets hlength, hbuild] at hbuild'
    cases hbuild'
    rw [h.decode_eq, hdecode]
  | @extendedHandshake length _ _ h hlength hbuild hflags =>
    have hbody : 8 ≤ ((octets.take length).drop 4).length := by
      rw [h.length_body]
      omega
    obtain ⟨build, flags, hbuild', hflags', hdecode⟩ := decodeBody_extendedHandshake hbody
    rw [field32?_body octets (by omega), hbuild] at hbuild'
    rw [field32?_body octets hlength, hflags] at hflags'
    cases hbuild'
    cases hflags'
    rw [h.decode_eq, hdecode]
  | launchReport h hlength hflags hcode hraw hsize hfit htext hnuls hlast =>
    -- What the decoder reads at each offset is what stands there.
    obtain ⟨flags, code, raw, size, hflags', hcode', hraw', hsize', hdecode⟩ :=
      h.decode_launchReport hlength
    rw [hflags] at hflags'
    rw [hcode] at hcode'
    rw [hraw] at hraw'
    rw [hsize] at hsize'
    cases hflags'
    cases hcode'
    cases hraw'
    cases hsize'
    have hprogram := h.length_program
    rw [hdecode, decodeProgram_of_eq_encode (by omega) (by rw [take_drop_body hfit, htext]),
      Text.Utf16.trimNuls_eq hnuls hlast]
    rfl
  | other h hpart =>
    rw [h.decode_eq, decodeBody_of_none hpart]

/-- The first fault in the octets is the one that is reported. -/
theorem Fault.decode_eq {octets : Bytes} {cause : Error} (h : Fault octets cause) :
    ServerOrder.decode octets = .error cause := by
  -- The reader makes the checks in the order of the cases.
  cases h with
  | header hsize => exact decode_of_lt hsize
  | length hann hlength => rw [hann.decode_eq, if_pos hlength]
  | body hann hlength hsize =>
    rw [hann.decode_eq, if_neg (Nat.not_lt.mpr hlength), if_pos hsize]
  | fixedPart h hpart hshort =>
    rw [h.decode_eq, decodeBody_of_lt hpart (by rwa [h.length_body]), h.length_body]
  | program h hlength hsize hshort =>
    obtain ⟨flags, code, raw, size, -, -, -, hsize', hdecode⟩ := h.decode_launchReport hlength
    rw [hsize] at hsize'
    cases hsize'
    rw [hdecode, decodeProgram, if_pos (by rwa [h.length_program]), h.length_program]
    rfl
  | text h hlength hsize hfit htext =>
    obtain ⟨flags, code, raw, size, -, -, -, hsize', hdecode⟩ := h.decode_launchReport hlength
    rw [hsize] at hsize'
    cases hsize'
    rw [hdecode, decodeProgram_of_not_isText (by rwa [h.length_program])
      (by rwa [take_drop_body (by omega)])]
    rfl

/-- A whole report spells an order or has a fault. -/
theorem IsWhole.spells_or_fault_launchReport {octets : Bytes} {length : Nat}
    (h : IsWhole octets 0x0080 length) (hlength : 16 ≤ length) :
    (∃ order, Spells octets order) ∨ (∃ cause, Fault octets cause) := by
  have hsize := h.le_size
  obtain ⟨flags, hflags⟩ := exists_field16? octets 4 (by omega)
  obtain ⟨code, hcode⟩ := exists_field16? octets 6 (by omega)
  obtain ⟨raw, hraw⟩ := exists_field32? octets 8 (by omega)
  obtain ⟨size, hsize⟩ := exists_field16? octets 14 (by omega)
  by_cases hfit : 16 + size.toNat ≤ length
  · by_cases htext : Text.Utf16.IsText (programOctets octets size.toNat)
    · obtain ⟨text, hdecode⟩ :=
        Option.isSome_iff_exists.mp ((Text.Utf16.isSome_decode?_iff _).mpr htext)
      obtain ⟨nuls, hnuls⟩ := Text.Utf16.trimNuls_append_nuls text
      exact .inl ⟨_, .launchReport h hlength hflags hcode hraw hsize hfit
        ((Text.Utf16.decode?_eq_some_iff _ text).mp hdecode) hnuls
        (Text.Utf16.getLast?_trimNuls_ne text)⟩
    · exact .inr ⟨_, .text h hlength hsize (by omega) htext⟩
  · exact .inr ⟨_, .program h hlength hsize (by omega)⟩

/-- Any octets spell an order or have a fault. -/
theorem spells_or_fault (octets : Bytes) :
    (∃ order, Spells octets order) ∨ (∃ cause, Fault octets cause) := by
  -- The conditions are tried in the order of their precedence.
  by_cases hsize : octets.length < 4
  · exact .inr ⟨_, .header hsize⟩
  obtain ⟨type, length, hann⟩ := exists_announces (Nat.not_lt.mp hsize)
  by_cases hfour : length < 4
  · exact .inr ⟨_, .length hann hfour⟩
  by_cases hbody : octets.length < length
  · exact .inr ⟨_, .body hann (Nat.not_lt.mp hfour) hbody⟩
  have h : IsWhole octets type length := ⟨hann, Nat.not_lt.mp hfour, Nat.not_lt.mp hbody⟩
  cases hpart : fixedPart? type with
  | none => exact .inl ⟨_, .other h hpart⟩
  | some part =>
    obtain ⟨what, size⟩ := part
    by_cases hshort : length - 4 < size
    · exact .inr ⟨_, .fixedPart h hpart hshort⟩
    obtain ⟨rfl, -, rfl⟩ | ⟨rfl, -, rfl⟩ | ⟨rfl, -, rfl⟩ := fixedPart?_cases hpart
    · obtain ⟨build, hbuild⟩ := exists_field32? octets 4 (by omega)
      exact .inl ⟨_, .handshake h (by omega) hbuild⟩
    · obtain ⟨build, hbuild⟩ := exists_field32? octets 4 (by omega)
      obtain ⟨flags, hflags⟩ := exists_field32? octets 8 (by omega)
      exact .inl ⟨_, .extendedHandshake h (by omega) hbuild hflags⟩
    · exact h.spells_or_fault_launchReport (by omega)

/-- An order that is read is spelled by the octets. -/
theorem spells_of_decode {octets : Bytes} {order : ServerOrder}
    (h : ServerOrder.decode octets = .ok order) : Spells octets order := by
  obtain ⟨order', hspells⟩ | ⟨cause, hfault⟩ := spells_or_fault octets
  · rw [hspells.decode_eq] at h
    cases h
    exact hspells
  · rw [hfault.decode_eq] at h
    cases h

/-- A fault that is reported is the first one in the octets. -/
theorem fault_of_decode {octets : Bytes} {cause : Error}
    (h : ServerOrder.decode octets = .error cause) : Fault octets cause := by
  obtain ⟨order, hspells⟩ | ⟨cause', hfault⟩ := spells_or_fault octets
  · rw [hspells.decode_eq] at h
    cases h
  · rw [hfault.decode_eq] at h
    cases h
    exact hfault

/-- What stands behind the announced length plays no part. -/
theorem Announces.decode_append {octets : Bytes} {type : UInt16} {length : Nat}
    (h : Announces octets type length) (hlength : length ≤ octets.length) (suffix : Bytes) :
    ServerOrder.decode (octets ++ suffix) = ServerOrder.decode octets := by
  have hlength' : length ≤ (octets ++ suffix).length := by
    rw [List.length_append]
    omega
  rw [(h.append suffix).decode_eq, h.decode_eq, if_neg (Nat.not_lt.mpr hlength),
    if_neg (Nat.not_lt.mpr hlength'), List.take_append_of_le_length hlength]

/-- Octets that spell an order are an order. -/
theorem Spells.isOrder {octets : Bytes} {order : ServerOrder} (h : Spells octets order) :
    IsOrder octets := by
  cases h with
  | handshake h hlength _ =>
    exact ⟨_, _, h, fun _ => by omega, fun ht => absurd ht (by decide),
      fun ht => absurd ht (by decide)⟩
  | extendedHandshake h hlength _ _ =>
    exact ⟨_, _, h, fun ht => absurd ht (by decide), fun _ => by omega,
      fun ht => absurd ht (by decide)⟩
  | launchReport h hlength _ _ _ hsize hfit htext _ _ =>
    refine ⟨_, _, h, fun ht => absurd ht (by decide), fun ht => absurd ht (by decide),
      fun _ => ⟨by omega, _, hsize, by omega, ?_⟩⟩
    rw [← Text.Utf16.isSome_decode?_iff, (Text.Utf16.decode?_eq_some_iff _ _).mpr htext]
    rfl
  | other h hpart =>
    refine ⟨_, _, h, ?_, ?_, ?_⟩ <;> rintro rfl <;> cases hpart

/-- Octets with a fault are no order. -/
theorem Fault.not_isOrder {octets : Bytes} {cause : Error} (h : Fault octets cause) :
    ¬IsOrder octets := by
  rintro ⟨type, length, hwhole, hplain, hext, hreport⟩
  -- A header announces one type and one length, so both sides speak of the same order.
  cases h with
  | header hsize =>
    have := hwhole.announces.four_le_length
    omega
  | length hann hlength =>
    have := (hann.unique hwhole.announces).2
    have := hwhole.four_le
    omega
  | body hann hlength hsize =>
    have := (hann.unique hwhole.announces).2
    have := hwhole.le_size
    omega
  | fixedPart hwhole' hpart hshort =>
    obtain ⟨rfl, rfl⟩ := hwhole'.announces.unique hwhole.announces
    obtain ⟨htype, -, rfl⟩ | ⟨htype, -, rfl⟩ | ⟨htype, -, rfl⟩ := fixedPart?_cases hpart
    · have := hplain htype
      omega
    · have := hext htype
      omega
    · have := (hreport htype).1
      omega
  | program hwhole' hlength hsize hshort =>
    obtain ⟨htype, rfl⟩ := hwhole'.announces.unique hwhole.announces
    obtain ⟨-, size', hsize', hfit, -⟩ := hreport htype.symm
    rw [hsize] at hsize'
    cases hsize'
    omega
  | text hwhole' hlength hsize hfit htext =>
    obtain ⟨htype, rfl⟩ := hwhole'.announces.unique hwhole.announces
    obtain ⟨-, size', hsize', -, htext'⟩ := hreport htype.symm
    rw [hsize] at hsize'
    cases hsize'
    exact htext htext'

/-- The decoder accepts exactly what is an order, reads it field by field, reports the first
fault in anything else with its figures, and does not look behind the announced length. -/
theorem decode_grammar (octets : Bytes) :
    ((∃ order, ServerOrder.decode octets = .ok order) ↔ IsOrder octets) ∧
    (∀ order, ServerOrder.decode octets = .ok order ↔ Spells octets order) ∧
    (∀ cause, ServerOrder.decode octets = .error cause ↔ Fault octets cause) ∧
    (∀ type length, Announces octets type length → length ≤ octets.length →
      ∀ suffix, ServerOrder.decode (octets ++ suffix) = ServerOrder.decode octets) := by
  -- The decoder returns something on any octets, and nothing is spelled and faulty at once.
  have hspells : ∀ order, ServerOrder.decode octets = .ok order ↔ Spells octets order := by
    intro order
    constructor
    · intro hdecode
      obtain ⟨order', h⟩ | ⟨cause, h⟩ := spells_or_fault octets
      · rw [h.decode_eq] at hdecode
        cases hdecode
        exact h
      · rw [h.decode_eq] at hdecode
        cases hdecode
    · exact Spells.decode_eq
  have hfault : ∀ cause, ServerOrder.decode octets = .error cause ↔ Fault octets cause := by
    intro cause
    constructor
    · intro hdecode
      obtain ⟨order, h⟩ | ⟨cause', h⟩ := spells_or_fault octets
      · rw [h.decode_eq] at hdecode
        cases hdecode
      · rw [h.decode_eq] at hdecode
        cases hdecode
        exact h
    · exact Fault.decode_eq
  refine ⟨⟨?_, ?_⟩, hspells, hfault, fun type length h hlength suffix => ?_⟩
  · rintro ⟨order, hdecode⟩
    exact ((hspells order).mp hdecode).isOrder
  · intro horder
    obtain ⟨order, h⟩ | ⟨cause, h⟩ := spells_or_fault octets
    · exact ⟨order, h.decode_eq⟩
    · exact absurd horder h.not_isOrder
  · exact h.decode_append hlength suffix

end RemotePrograms
