import RemotePrograms.Proofs.Order.Delimited

/-!
# `RemotePrograms.Proofs.Order.LaunchReader`: an execute order as its receiver reads it

The library writes execute orders and never reads one. So that something can be said about what is
written, `Launch.read?` reads the body of such an order the way the protocol describes it: the
flags, three sizes of 16 bits, and then three texts of these sizes with nothing behind them. Only
the sizes say where one text ends and the next one begins. `readText?` is the step for one text, and
it takes NULs as it finds them.

* `read?_eq_some_iff`: the reader accepts the bodies of launches and nothing else.
* `encode_eq_error_iff` and `encode_eq_ok_iff`: which launches are written, and what the first text
  that is too long is reported as.

`launch_exact` puts them together.
-/

set_option autoImplicit false

namespace RemotePrograms

/-! ### The reader -/

/-- The text in the first `size` octets, and what lies behind it. -/
def readText? (size : Nat) (octets : Bytes) : Option (String × Bytes) :=
  if size ≤ octets.length then
    (Text.Utf16.decode? (octets.take size)).map fun text => (text, octets.drop size)
  else none

/-- The launch in the body of an execute order. -/
def Launch.read? : Bytes → Option Launch
  | f₀ :: f₁ :: p₀ :: p₁ :: w₀ :: w₁ :: a₀ :: a₁ :: texts => do
    let (program, texts) ← readText? (word16 p₀ p₁).toNat texts
    let (workingDir, texts) ← readText? (word16 w₀ w₁).toNat texts
    let (arguments, texts) ← readText? (word16 a₀ a₁).toNat texts
    if texts.isEmpty then some ⟨⟨word16 f₀ f₁⟩, program, workingDir, arguments⟩ else none
  | _ => none

/-- A text is read where its octets stand, if the size is theirs. -/
theorem readText?_eq_some_iff {size : Nat} {octets rest : Bytes} {text : String} :
    readText? size octets = some (text, rest) ↔
      octets = Text.Utf16.encode text ++ rest ∧ size = Text.Utf16.size text := by
  rw [← Text.Utf16.length_encode]
  constructor
  · intro h
    unfold readText? at h
    split at h
    · rename_i hsize
      obtain ⟨text', htext, heq⟩ := Option.map_eq_some_iff.mp h
      cases heq
      rw [Text.Utf16.decode?_eq_some_iff] at htext
      rw [← htext]
      exact ⟨(List.take_append_drop size octets).symm, (List.length_take_of_le hsize).symm⟩
    · cases h
  · rintro ⟨rfl, rfl⟩
    have htext : Text.Utf16.decode? (Text.Utf16.encode text) = some text :=
      (Text.Utf16.decode?_eq_some_iff _ _).mpr rfl
    rw [readText?, if_pos (by simp), List.take_left' rfl, List.drop_left' rfl, htext]
    rfl

/-- Two octets that read as the size of a text are its size field. -/
theorem sizeField_eq {a b : UInt8} {text : String}
    (h : (word16 a b).toNat = Text.Utf16.size text) :
    sizeField (Text.Utf16.encode text) = [a, b] := by
  rw [sizeField, Text.Utf16.length_encode, ← h, UInt16.ofNat_toNat, Text.Utf16.le16_word16]

/-- The texts of a launch have sizes that their fields can hold. -/
structure Launch.IsSizable (order : Launch) : Prop where
  program : Text.Utf16.size order.program ≤ 65535
  workingDir : Text.Utf16.size order.workingDir ≤ 65535
  arguments : Text.Utf16.size order.arguments ≤ 65535

/-- A launch is read from its own body, as long as the size fields can hold the sizes, and from
nothing else. -/
theorem Launch.read?_eq_some_iff {body : Bytes} {order : Launch} :
    read? body = some order ↔ body = order.body ∧ order.IsSizable := by
  constructor
  · intro h
    unfold read? at h
    split at h
    · rename_i f₀ f₁ p₀ p₁ w₀ w₁ a₀ a₁ texts
      simp only [bind, Option.bind_eq_some_iff] at h
      -- One text after another is taken off, and the sizes in front say how much that is.
      obtain ⟨⟨program, texts₁⟩, hprogram, ⟨workingDir, texts₂⟩, hworkingDir,
        ⟨arguments, texts₃⟩, harguments, hend⟩ := h
      obtain ⟨rfl, hp⟩ := readText?_eq_some_iff.mp hprogram
      obtain ⟨rfl, hw⟩ := readText?_eq_some_iff.mp hworkingDir
      obtain ⟨rfl, ha⟩ := readText?_eq_some_iff.mp harguments
      split at hend
      · rename_i hempty
        cases hend
        have hnil : texts₃ = [] := List.isEmpty_iff.mp hempty
        subst hnil
        constructor
        · simp only [body, sizeField_eq hp, sizeField_eq hw, sizeField_eq ha,
            Text.Utf16.le16_word16, List.append_nil, List.append_assoc]
          rfl
        · exact ⟨hp ▸ Nat.le_of_lt_succ (word16 p₀ p₁).toNat_lt,
            hw ▸ Nat.le_of_lt_succ (word16 w₀ w₁).toNat_lt,
            ha ▸ Nat.le_of_lt_succ (word16 a₀ a₁).toNat_lt⟩
      · cases hend
    · cases h
  · rintro ⟨rfl, hsizable⟩
    have hfield : ∀ text : String, Text.Utf16.size text ≤ 65535 →
        (UInt16.ofNat (Text.Utf16.encode text).length).toNat = Text.Utf16.size text := by
      intro text h
      rw [Text.Utf16.length_encode]
      exact UInt16.toNat_ofNat_of_lt' (Nat.lt_succ_of_le h)
    have htext : ∀ (text : String) (rest : Bytes),
        readText? (Text.Utf16.size text) (Text.Utf16.encode text ++ rest) = some (text, rest) :=
      fun text rest => readText?_eq_some_iff.mpr ⟨rfl, rfl⟩
    have hlast := htext order.arguments []
    rw [List.append_nil] at hlast
    -- Each size stands in its field, so each text is taken off whole.
    simp only [body, sizeField, le16, List.cons_append, List.nil_append, List.append_assoc]
    simp only [read?, word16_le16, hfield _ hsizable.program, hfield _ hsizable.workingDir,
      hfield _ hsizable.arguments, bind, htext, hlast, Option.bind_some]
    rfl

/-! ### The header -/

/-- Octets whose header announces their own length are what is framed. -/
theorem eq_framed_of_header? {pdu : Bytes} {type : UInt16}
    (h : header? pdu = some (type, pdu.length)) : pdu = framed type (pdu.drop headerSize) := by
  unfold header? at h
  split at h
  · rename_i a b c d body
    simp only [Option.some.injEq, Prod.mk.injEq, List.length_cons] at h
    obtain ⟨rfl, hlength⟩ := h
    have hsize : UInt16.ofNat (headerSize + body.length) = word16 c d := by
      rw [headerSize, show 4 + body.length = (word16 c d).toNat by omega, UInt16.ofNat_toNat]
    show _ = le16 (word16 a b) ++ le16 (.ofNat (headerSize + body.length)) ++ body
    rw [hsize, Text.Utf16.le16_word16, Text.Utf16.le16_word16]
    rfl
  · cases h

/-- The header of a PDU has its type and its length. -/
theorem header?_framed {type : UInt16} {body : Bytes} (h : Framable body) :
    header? (framed type body) = some (type, (framed type body).length) := by
  have hsize : size16? (framed type body) 2 = some (framed type body).length := size16?_framed h
  show some (word16 _ _, (word16 _ _).toNat) = _
  rw [word16_le16]
  exact congrArg (fun length => some (type, length)) (Option.some.inj hsize)

/-! ### Writing -/

namespace Launch

/-- A launch is not written if one of its texts is too long, and the first one is reported. -/
theorem encode_eq_error_iff (order : Launch) (cause : Error) :
    order.encode = .error cause ↔
      (520 < Text.Utf16.size order.program ∧
        cause = .tooLong "program" (Text.Utf16.size order.program) 520) ∨
      (Text.Utf16.size order.program ≤ 520 ∧ 520 < Text.Utf16.size order.workingDir ∧
        cause = .tooLong "working directory" (Text.Utf16.size order.workingDir) 520) ∨
      (Text.Utf16.size order.program ≤ 520 ∧ Text.Utf16.size order.workingDir ≤ 520 ∧
        16000 < Text.Utf16.size order.arguments ∧
        cause = .tooLong "arguments" (Text.Utf16.size order.arguments) 16000) := by
  rw [order.encode_eq]
  simp only [maxPathSize, maxArgumentsSize]
  -- The sizes are looked at in the order in which the texts stand.
  by_cases hprogram : Text.Utf16.size order.program ≤ 520
  · by_cases hworkingDir : Text.Utf16.size order.workingDir ≤ 520
    · by_cases harguments : Text.Utf16.size order.arguments ≤ 16000
      · simp [hprogram, hworkingDir, harguments, Nat.not_lt.mpr]
      · simp [hprogram, hworkingDir, harguments, Nat.not_lt.mpr, Nat.lt_of_not_le harguments,
          eq_comm]
    · simp [hprogram, hworkingDir, Nat.not_lt.mpr, Nat.lt_of_not_le hworkingDir, eq_comm]
  · simp [hprogram, Nat.lt_of_not_le hprogram, eq_comm]

variable {order : Launch}

/-- Texts that fit leave room for the header, and their sizes fit into the size fields. -/
theorem Fits.framable (h : order.Fits) : Framable order.body ∧ order.IsSizable := by
  have hprogram := h.program
  have hworkingDir := h.workingDir
  have harguments := h.arguments
  simp only [maxPathSize, maxArgumentsSize] at hprogram hworkingDir harguments
  constructor
  · rw [Framable, order.length_body]
    omega
  · exact ⟨by omega, by omega, by omega⟩

/-- What is written of a launch that fits is what the receiver reads as this launch. -/
theorem encode_eq_ok_iff (order : Launch) (pdu : Bytes) :
    order.encode = .ok pdu ↔
      order.Fits ∧ header? pdu = some (OrderType.launch.wire, pdu.length) ∧
        read? (pdu.drop headerSize) = some order := by
  constructor
  · intro h
    obtain ⟨hfits, rfl⟩ := of_encode_eq_ok h
    obtain ⟨hframable, hsizable⟩ := hfits.framable
    exact ⟨hfits, header?_framed hframable, read?_eq_some_iff.mpr ⟨rfl, hsizable⟩⟩
  · rintro ⟨hfits, hheader, hread⟩
    obtain ⟨hbody, -⟩ := read?_eq_some_iff.mp hread
    rw [eq_framed_of_header? hheader, hbody, order.encode_eq, if_pos hfits.program,
      if_pos hfits.workingDir, if_pos hfits.arguments]

end Launch

/-! ### The property -/

/-- What is written of a launch. The first of its texts that is too long is reported, with its size
and its limit, and if there is none, the launch is written. A PDU is that of a launch exactly if its
header says so and announces its length, and a receiver that goes by the sizes reads this launch in
it: the same flags, and the same three texts, NULs and all. So no two launches are written alike. -/
theorem launch_exact (order : Launch) :
    (∀ cause, order.encode = .error cause ↔
      (520 < Text.Utf16.size order.program ∧
        cause = .tooLong "program" (Text.Utf16.size order.program) 520) ∨
      (Text.Utf16.size order.program ≤ 520 ∧ 520 < Text.Utf16.size order.workingDir ∧
        cause = .tooLong "working directory" (Text.Utf16.size order.workingDir) 520) ∨
      (Text.Utf16.size order.program ≤ 520 ∧ Text.Utf16.size order.workingDir ≤ 520 ∧
        16000 < Text.Utf16.size order.arguments ∧
        cause = .tooLong "arguments" (Text.Utf16.size order.arguments) 16000)) ∧
    ((∃ pdu, order.encode = .ok pdu) ↔
      Text.Utf16.size order.program ≤ 520 ∧ Text.Utf16.size order.workingDir ≤ 520 ∧
        Text.Utf16.size order.arguments ≤ 16000) ∧
    (∀ pdu, order.encode = .ok pdu ↔
      (Text.Utf16.size order.program ≤ 520 ∧ Text.Utf16.size order.workingDir ≤ 520 ∧
        Text.Utf16.size order.arguments ≤ 16000) ∧
      header? pdu = some (0x0001, pdu.length) ∧ Launch.read? (pdu.drop 4) = some order) ∧
    ∀ other pdu, order.encode = .ok pdu → other.encode = .ok pdu → other = order := by
  have hfits : order.Fits ↔ Text.Utf16.size order.program ≤ 520 ∧
      Text.Utf16.size order.workingDir ≤ 520 ∧ Text.Utf16.size order.arguments ≤ 16000 :=
    ⟨fun h => ⟨h.program, h.workingDir, h.arguments⟩, fun h => ⟨h.1, h.2.1, h.2.2⟩⟩
  refine ⟨order.encode_eq_error_iff, ?_, ?_, ?_⟩
  · rw [← hfits]
    constructor
    · rintro ⟨pdu, hpdu⟩
      exact (Launch.of_encode_eq_ok hpdu).1
    · intro h
      exact ⟨_, by rw [order.encode_eq, if_pos h.program, if_pos h.workingDir, if_pos h.arguments]⟩
  · intro pdu
    rw [← hfits]
    exact order.encode_eq_ok_iff pdu
  · intro other pdu horder hother
    -- Both launches are what the receiver reads.
    have hread := ((order.encode_eq_ok_iff pdu).mp horder).2.2
    have hread' := ((other.encode_eq_ok_iff pdu).mp hother).2.2
    exact Option.some.inj (hread'.symm.trans hread)

/-- A launch with a NUL at the end of one text and at the start of another, an empty text between
them, and a character beyond the basic plane. -/
def nulLaunch : Launch := ⟨⟨0xFFFF⟩, "a\x00", "", "\x00😀"⟩

/-- The NULs stay on their side of the border between the texts. -/
theorem launch_exact_nuls :
    ∃ pdu, nulLaunch.encode = .ok pdu ∧ pdu.length = 22 ∧
      Launch.read? (pdu.drop 4) = some nulLaunch ∧
      ∀ other : Launch, other.encode = .ok pdu → other = nulLaunch := by
  obtain ⟨-, hwritten, hread, hinjective⟩ := launch_exact nulLaunch
  obtain ⟨pdu, hpdu⟩ := hwritten.mpr (by decide)
  have hlength : pdu.length = 22 := by
    rw [(Launch.of_encode_eq_ok hpdu).2, length_framed, Launch.length_body]
    decide
  exact ⟨pdu, hpdu, hlength, ((hread pdu).mp hpdu).2.2, fun other => hinjective other pdu hpdu⟩

end RemotePrograms
