import Mathlib.Algebra.Ring.Nat
import RemotePrograms.Proofs.Order.Grammar

/-!
# `RemotePrograms.Proofs.Order.RoundTrip`: a server's orders there and back

Every order that a server writes is read again by `ServerOrder.decode`. Handshakes come back as
they were. A report comes back in its normal form, `LaunchReport.normal`. The format has no room
for two things. NULs at the end of a program are taken for filling, and a number without a name
cannot be told from the result that has the number. Everything else survives, flag bits without
a meaning included.

A report can only be written if its program fits. `Text.Utf16.size` says how many octets a text
takes without writing it.
-/

set_option autoImplicit false

namespace RemotePrograms

/-- How many octets a text takes: two for a character of the basic plane, four for any other. -/
def Text.Utf16.size (text : String) : Nat :=
  (text.toList.map fun c => if c.toNat < 0x10000 then 2 else 4).sum

/-- A text is written in as many octets as its size says. -/
theorem Text.Utf16.length_encode (text : String) : (encode text).length = size text := by
  rw [encode, size]
  induction text.toList with
  | nil => rfl
  | cons c cs ih =>
    have hunits : ((units c).flatMap le16).length = if c.toNat < 0x10000 then 2 else 4 := by
      unfold units
      split
      · rfl
      · rfl
    rw [List.flatMap_cons, List.flatMap_append, List.length_append, hunits, ih, List.map_cons,
      List.sum_cons]

/-! ### Normal forms -/

/-- A result in normal form: what its number reads as. -/
def LaunchResult.normal : LaunchResult → LaunchResult
  | unknown n => ofCode n
  | result => result

/-- A report in normal form. Its program ends in no NUL, and its result is called by its name if
it has one. -/
def LaunchReport.normal (order : LaunchReport) : LaunchReport :=
  { order with
    result := order.result.normal
    program := Text.Utf16.trimNuls order.program }

/-- A result reads as its normal form. -/
theorem LaunchResult.ofCode_code (result : LaunchResult) : ofCode result.code = result.normal := by
  cases result <;> rfl

/-- A number reads as itself without a name exactly if no name has it. -/
theorem LaunchResult.ofCode_eq_unknown_iff (n : UInt16) :
    ofCode n = unknown n ↔ ∀ result ∈ named, result.code ≠ n := by
  constructor
  · intro h result hmem hcode
    -- A named result that has the number would have been found.
    have hnormal := ofCode_code result
    rw [hcode, h] at hnormal
    revert hmem
    cases result with
    | unknown code => simp [named]
    | _ => cases hnormal
  · intro h
    have hnone : named.find? (fun result => result.code == n) = none := by
      rw [List.find?_eq_none]
      intro result hmem
      simpa using h result hmem
    rw [ofCode, hnone]
    rfl

/-- A result is in normal form unless it hides the number of a named one. -/
theorem LaunchResult.normal_eq_self_iff (result : LaunchResult) :
    result.normal = result ↔
      ∀ n, result = unknown n → ∀ other ∈ named, other.code ≠ n := by
  cases result with
  | unknown code =>
    show ofCode code = unknown code ↔ _
    rw [ofCode_eq_unknown_iff]
    constructor
    · intro h n hn
      cases hn
      exact h
    · intro h
      exact h code rfl
  | _ =>
    constructor
    · intro _ n hn
      cases hn
    · intro _
      rfl

/-- Nothing is trimmed off a text that does not end in a NUL. -/
theorem Text.Utf16.trimNuls_eq_self_iff (text : String) :
    trimNuls text = text ↔ text.toList.getLast? ≠ some '\x00' := by
  constructor
  · intro h
    rw [← h]
    exact getLast?_trimNuls_ne text
  · intro h
    exact trimNuls_eq (n := 0) (List.append_nil _).symm h

/-- A report is in normal form exactly if the format has room for it as it is. -/
theorem LaunchReport.normal_eq_self_iff (order : LaunchReport) :
    order.normal = order ↔
      order.program.toList.getLast? ≠ some '\x00' ∧
      ∀ n, order.result = .unknown n → ∀ result ∈ LaunchResult.named, result.code ≠ n := by
  rw [← Text.Utf16.trimNuls_eq_self_iff, ← LaunchResult.normal_eq_self_iff]
  obtain ⟨flags, result, rawResult, program⟩ := order
  simp only [normal, LaunchReport.mk.injEq, true_and]
  exact and_comm

/-! ### Writing and reading -/

/-- What is framed is read by its type. -/
theorem ServerOrder.decode_framed (type : UInt16) (body : Bytes)
    (h : headerSize + body.length ≤ maxOrderLength) :
    decode (framed type body) = decodeBody type body := by
  rw [headerSize, maxOrderLength] at h
  have hlength : (UInt16.ofNat (headerSize + body.length)).toNat = 4 + body.length := by
    rw [UInt16.toNat_ofNat', headerSize]
    omega
  have hheader : header? (framed type body) = some (type, 4 + body.length) := by
    rw [← hlength]
    show some (_, _) = _
    rw [word16_le16, word16_le16]
  have hsize : (framed type body).length = 4 + body.length := by
    simp only [framed, List.length_append, length_le16]
  have hbody : ((framed type body).take (4 + body.length)).drop 4 = body := by
    rw [← hsize, List.take_length]
    rfl
  -- The length that is announced is that of the whole.
  simp only [decode, hheader, hsize, headerSize]
  rw [if_neg (by omega), if_neg (by omega), hbody]

/-- A handshake reads as it was. -/
theorem Handshake.decode_encode (order : Handshake) :
    ServerOrder.decode order.encode = .ok (.handshake order) := by
  rw [encode, ServerOrder.decode_framed _ _ (by simp [headerSize, maxOrderLength])]
  show Except.ok (ServerOrder.handshake ⟨word32 _ _ _ _⟩) = _
  rw [word32_le32]

/-- An extended handshake reads as it was. -/
theorem ExtendedHandshake.decode_encode (order : ExtendedHandshake) :
    ServerOrder.decode order.encode = .ok (.extendedHandshake order) := by
  rw [encode, ServerOrder.decode_framed _ _ (by simp [headerSize, maxOrderLength])]
  show Except.ok (ServerOrder.extendedHandshake ⟨word32 _ _ _ _, ⟨word32 _ _ _ _⟩⟩) = _
  rw [word32_le32, word32_le32]

/-- The body of a report whose program has these octets. -/
def LaunchReport.body (order : LaunchReport) (program : Bytes) : Bytes :=
  le16 order.flags.bits ++ le16 order.result.code ++ le32 order.rawResult ++ le16 0
    ++ sizeField program ++ program

/-- The body of a report has twelve octets in front of its program. -/
theorem LaunchReport.length_body (order : LaunchReport) (program : Bytes) :
    (order.body program).length = 12 + program.length := by
  simp only [body, sizeField, List.length_append, length_le16, length_le32]

/-- Writing a report succeeds exactly if its program fits. -/
theorem LaunchReport.encode_eq (order : LaunchReport) :
    order.encode
      = if Text.Utf16.size order.program ≤ maxPathSize then
          .ok (framed OrderType.launchReport.wire
            (order.body (Text.Utf16.encode order.program)))
        else .error (.tooLong "program" (Text.Utf16.size order.program) maxPathSize) := by
  rw [encode, boundedText, Text.Utf16.length_encode]
  split
  · rfl
  · rfl

/-- The body of a report is read in normal form. -/
theorem LaunchReport.decodeBody_body (order : LaunchReport)
    (h : (Text.Utf16.encode order.program).length ≤ maxPathSize) :
    ServerOrder.decodeBody OrderType.launchReport.wire
        (order.body (Text.Utf16.encode order.program))
      = .ok (.launchReport order.normal) := by
  rw [maxPathSize] at h
  have hsize : (UInt16.ofNat (Text.Utf16.encode order.program).length).toNat
      = (Text.Utf16.encode order.program).length := by
    rw [UInt16.toNat_ofNat']
    omega
  have hprogram : decodeProgram (Text.Utf16.encode order.program).length
      (Text.Utf16.encode order.program) = .ok (Text.Utf16.trimNuls order.program) :=
    decodeProgram_of_eq_encode (Nat.le_refl _) List.take_length
  -- Each field is read where it was written.
  show ((decodeProgram (word16 _ _).toNat (Text.Utf16.encode order.program)).map fun program =>
    LaunchReport.mk ⟨word16 _ _⟩ (.ofCode (word16 _ _)) (word32 _ _ _ _) program).map
      ServerOrder.launchReport = _
  rw [word16_le16, word16_le16, word16_le16, word32_le32, hsize, hprogram,
    LaunchResult.ofCode_code]
  rfl

/-- What a server writes is read again. Handshakes come back unchanged, whatever their flags. A
report can be written exactly if its program fits, and it comes back in normal form. That form
differs from the report only by NULs at the end of its program and by a number that has a name. -/
theorem decode_encode_normal :
    (∀ order : Handshake, ServerOrder.decode order.encode = .ok (.handshake order)) ∧
    (∀ order : ExtendedHandshake,
      ServerOrder.decode order.encode = .ok (.extendedHandshake order)) ∧
    ∀ order : LaunchReport,
      (∀ cause, order.encode = .error cause ↔
        520 < Text.Utf16.size order.program ∧
          cause = .tooLong "program" (Text.Utf16.size order.program) 520) ∧
      (Text.Utf16.size order.program ≤ 520 →
        ∃ pdu, order.encode = .ok pdu ∧
          ServerOrder.decode pdu = .ok (.launchReport order.normal) ∧
          (ServerOrder.decode pdu = .ok (.launchReport order) ↔
            order.program.toList.getLast? ≠ some '\x00' ∧
            ∀ n, order.result = .unknown n →
              ∀ result ∈ LaunchResult.named, result.code ≠ n)) ∧
      (∃ nuls, order.program.toList
        = order.normal.program.toList ++ List.replicate nuls '\x00') ∧
      order.normal.program.toList.getLast? ≠ some '\x00' := by
  refine ⟨Handshake.decode_encode, ExtendedHandshake.decode_encode, fun order =>
    ⟨fun cause => ?_, fun hfits => ?_, Text.Utf16.trimNuls_append_nuls order.program,
      Text.Utf16.getLast?_trimNuls_ne order.program⟩⟩
  · rw [order.encode_eq, maxPathSize]
    by_cases hfits : Text.Utf16.size order.program ≤ 520
    · rw [if_pos hfits]
      constructor
      · intro h
        cases h
      · rintro ⟨hlong, -⟩
        omega
    · rw [if_neg hfits, Except.error.injEq]
      constructor
      · rintro rfl
        exact ⟨Nat.lt_of_not_le hfits, rfl⟩
      · rintro ⟨-, rfl⟩
        rfl
  · have hlength : (Text.Utf16.encode order.program).length ≤ maxPathSize := by
      rw [Text.Utf16.length_encode]
      exact hfits
    -- A program within the limit leaves its PDU far below what a length can announce.
    have hdecode : ServerOrder.decode (framed OrderType.launchReport.wire
        (order.body (Text.Utf16.encode order.program))) = .ok (.launchReport order.normal) := by
      rw [ServerOrder.decode_framed, order.decodeBody_body hlength]
      rw [order.length_body, headerSize, maxOrderLength]
      rw [maxPathSize] at hlength
      omega
    refine ⟨_, by rw [order.encode_eq, maxPathSize, if_pos hfits], hdecode, ?_⟩
    rw [hdecode, ← order.normal_eq_self_iff, Except.ok.injEq, ServerOrder.launchReport.injEq]

/-- A report of success under a number instead of its name, on a program beyond the basic plane
with a NUL behind it. -/
def roundaboutReport : LaunchReport := ⟨⟨0xFFFF⟩, .unknown 0, 2, "😀\x00"⟩

/-- Its program fits, and it reads as its normal form. -/
theorem decode_encode_roundaboutReport :
    Text.Utf16.size roundaboutReport.program ≤ 520 ∧
      ∃ pdu, roundaboutReport.encode = .ok pdu ∧
        ServerOrder.decode pdu = .ok (.launchReport ⟨⟨0xFFFF⟩, .ok, 2, "😀"⟩) := by
  have hfits : Text.Utf16.size roundaboutReport.program ≤ 520 := by decide
  obtain ⟨-, hroundtrip, -⟩ := decode_encode_normal.2.2 roundaboutReport
  obtain ⟨pdu, hencode, hdecode, -⟩ := hroundtrip hfits
  exact ⟨hfits, pdu, hencode, hdecode⟩

end RemotePrograms
