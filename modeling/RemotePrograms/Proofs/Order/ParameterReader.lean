import Mathlib.Data.Nat.Bitwise
import RemotePrograms.Proofs.Order.LaunchReader

/-!
# `RemotePrograms.Proofs.Order.ParameterReader`: what an update of system parameters carries

An update says in a mask which parameters it sets, and it holds a value for each of them, also for
those that it does not set. On the wire there is no mask. There is one PDU for each parameter that
is set, and the number in it says which one it is. `Setting` is a parameter with its value, and
`Setting.read?` reads a PDU as one. `SystemParameters.settings` is what the PDUs of an update should
be read as: it goes by the bits of the mask (`Parameter.bit`), in the order of the wire.

* `read?_of_encode`: a PDU is read as the setting that it was written for.
* `encode_eq_error_iff` and `map_read?_of_encode`: when an update is written, and that its PDUs are
  read as its settings.
* `Agrees`: two updates that set the same parameters to the same values. They may differ in the
  values that they do not set, and in bits of the mask that have no meaning.

`parameters_follow_mask` puts them together.
-/

set_option autoImplicit false

namespace RemotePrograms

/-! ### Settings -/

/-- A system parameter with its value. -/
inductive Setting where
  | highContrast (colours : HighContrast)
  | mouseButtonSwap (on : Bool)
  | keyboardPref (on : Bool)
  | dragFullWindows (on : Bool)
  | keyboardCues (on : Bool)
  | workArea (area : Rect)
  deriving DecidableEq

/-- The parameter that a setting is of. -/
def Setting.parameter : Setting → Parameter
  | highContrast _ => .highContrast
  | mouseButtonSwap _ => .mouseButtonSwap
  | keyboardPref _ => .keyboardPref
  | dragFullWindows _ => .dragFullWindows
  | keyboardCues _ => .keyboardCues
  | workArea _ => .workArea

/-- The bit of a mask that stands for a parameter. -/
def Parameter.bit : Parameter → Nat
  | dragFullWindows => 0
  | keyboardCues => 1
  | keyboardPref => 2
  | mouseButtonSwap => 3
  | workArea => 4
  | highContrast => 7

namespace SystemParameters

/-- The update sets this parameter. -/
def Sets (order : SystemParameters) (param : Parameter) : Prop :=
  order.params.bits.toNat.testBit param.bit = true

instance (order : SystemParameters) (param : Parameter) : Decidable (order.Sets param) :=
  inferInstanceAs (Decidable (_ = true))

/-- The value that an update holds for a parameter, whether it sets it or not. -/
def setting (order : SystemParameters) : Parameter → Setting
  | .highContrast => .highContrast order.highContrast
  | .mouseButtonSwap => .mouseButtonSwap order.mouseButtonSwap
  | .keyboardPref => .keyboardPref order.keyboardPref
  | .dragFullWindows => .dragFullWindows order.dragFullWindows
  | .keyboardCues => .keyboardCues order.keyboardCues
  | .workArea => .workArea order.workArea

/-- What an update sets, in the order of the wire. -/
def settings (order : SystemParameters) : List Setting :=
  ([.highContrast, .mouseButtonSwap, .keyboardPref, .dragFullWindows, .keyboardCues,
    .workArea].filter fun param => order.Sets param).map order.setting

/-- Two updates set the same parameters to the same values. -/
structure Agrees (first second : SystemParameters) : Prop where
  mask_eq : first.params.bits &&& 0x9F = second.params.bits &&& 0x9F
  setting_eq : ∀ param, first.Sets param → first.setting param = second.setting param

end SystemParameters

/-! ### The reader -/

/-- The switch in the octets of a value. -/
def readSwitch? : Bytes → Option Bool
  | [0] => some false
  | [1] => some true
  | _ => none

/-- The rectangle in the octets of a value. -/
def Rect.read? : Bytes → Option Rect
  | [l₀, l₁, t₀, t₁, r₀, r₁, b₀, b₁] =>
    some ⟨word16 l₀ l₁, word16 t₀ t₁, word16 r₀ r₁, word16 b₀ b₁⟩
  | _ => none

/-- The high-contrast setting in the octets of a value. The size covers all that follows it, the
NUL behind the scheme included. -/
def HighContrast.read? : Bytes → Option HighContrast
  | f₀ :: f₁ :: f₂ :: f₃ :: s₀ :: s₁ :: s₂ :: s₃ :: rest =>
    if (word32 s₀ s₁ s₂ s₃).toNat = rest.length then
      match readText? (rest.length - 2) rest with
      | some (scheme, [0, 0]) => some ⟨⟨word32 f₀ f₁ f₂ f₃⟩, scheme⟩
      | _ => none
    else none
  | _ => none

namespace Setting

/-- The setting with this number and value. -/
def readValue? (number : Nat) (value : Bytes) : Option Setting :=
  match number with
  | 0x43 => (HighContrast.read? value).map highContrast
  | 0x21 => (readSwitch? value).map mouseButtonSwap
  | 0x45 => (readSwitch? value).map keyboardPref
  | 0x25 => (readSwitch? value).map dragFullWindows
  | 0x100B => (readSwitch? value).map keyboardCues
  | 0x2F => (Rect.read? value).map workArea
  | _ => none

/-- The setting in a PDU. -/
def read? (pdu : Bytes) : Option Setting :=
  if header? pdu = some (OrderType.systemParameters.wire, pdu.length) then
    match pdu.drop headerSize with
    | n₀ :: n₁ :: n₂ :: n₃ :: value => readValue? (word32 n₀ n₁ n₂ n₃).toNat value
    | _ => none
  else none

end Setting

/-- A switch is read as it was written. -/
theorem readSwitch?_encodeSwitch (on : Bool) : readSwitch? (encodeSwitch on) = some on := by
  cases on
  · rfl
  · rfl

/-- A rectangle is read as it was written. -/
theorem Rect.read?_encode (rect : Rect) : read? rect.encode = some rect := by
  show some (Rect.mk (word16 _ _) (word16 _ _) (word16 _ _) (word16 _ _)) = _
  rw [word16_le16, word16_le16, word16_le16, word16_le16]

/-! ### One parameter -/

/-- A high-contrast setting is written if its scheme fits. -/
theorem HighContrast.encode_eq (colours : HighContrast) :
    colours.encode
      = if Text.Utf16.size colours.colorScheme ≤ maxSchemeSize then
          .ok (le32 colours.flags.bits
            ++ le32 (.ofNat ((Text.Utf16.encode colours.colorScheme).length + 2))
            ++ Text.Utf16.encode colours.colorScheme ++ [0, 0])
        else .error (.tooLong "color scheme" (Text.Utf16.size colours.colorScheme)
          maxSchemeSize) := by
  rw [encode, boundedText_eq]
  split
  · rfl
  · rfl

/-- A high-contrast setting that can be written is read as it was. -/
theorem HighContrast.read?_of_encode {colours : HighContrast} {value : Bytes}
    (h : colours.encode = .ok value) : read? value = some colours := by
  rw [encode_eq] at h
  split at h
  · rename_i hfits
    cases h
    rw [maxSchemeSize] at hfits
    have hsize : (UInt32.ofNat ((Text.Utf16.encode colours.colorScheme).length + 2)).toNat
        = (Text.Utf16.encode colours.colorScheme ++ [0, 0]).length := by
      rw [List.length_append, Text.Utf16.length_encode]
      exact UInt32.toNat_ofNat_of_lt' (by show _ < 4294967296; omega)
    have hscheme : readText? ((Text.Utf16.encode colours.colorScheme ++ [0, 0]).length - 2)
        (Text.Utf16.encode colours.colorScheme ++ [0, 0]) = some (colours.colorScheme, [0, 0]) :=
      readText?_eq_some_iff.mpr ⟨rfl, by simp [Text.Utf16.length_encode]⟩
    simp only [le32, List.cons_append, List.nil_append, read?, word32_le32, hsize, hscheme,
      if_true]
  · cases h

namespace Parameter

variable {order : SystemParameters} {param : Parameter}

/-- The value of a parameter is read as the setting. -/
theorem readValue?_of_encodeValue {value : Bytes} (h : param.encodeValue order = .ok value) :
    Setting.readValue? param.wire.toNat value = some (order.setting param) := by
  cases param with
  | highContrast =>
    show (HighContrast.read? value).map Setting.highContrast = _
    rw [HighContrast.read?_of_encode h]
    rfl
  | workArea =>
    cases h
    show (Rect.read? order.workArea.encode).map Setting.workArea = _
    rw [Rect.read?_encode]
    rfl
  | _ =>
    -- The other parameters are switches.
    cases h
    show (readSwitch? _).map _ = _
    rw [readSwitch?_encodeSwitch]
    rfl

/-- Every value leaves room for the header. -/
theorem framable_of_encodeValue {value : Bytes} (h : param.encodeValue order = .ok value) :
    Framable (le32 param.wire ++ value) := by
  rw [Framable, List.length_append, length_le32]
  obtain ⟨-, hshort⟩ | ⟨-, hfits, rfl⟩ := WrittenOrder.encodeValue_cases h
  · omega
  · rw [maxSchemeSize] at hfits
    simp only [List.length_append, length_le32, Text.Utf16.length_encode, List.length_cons,
      List.length_nil]
    omega

/-- A PDU is read as the setting that it was written for. -/
theorem read?_of_encode {pdu : Bytes} (h : param.encode order = .ok pdu) :
    Setting.read? pdu = some (order.setting param) := by
  unfold encode at h
  cases hvalue : param.encodeValue order with
  | error cause =>
    rw [hvalue] at h
    cases h
  | ok value =>
    rw [hvalue] at h
    cases h
    rw [Setting.read?, if_pos (header?_framed (framable_of_encodeValue hvalue))]
    show Setting.readValue? (word32 _ _ _ _).toNat value = _
    rw [word32_le32, readValue?_of_encodeValue hvalue]

/-- The only parameter that may not fit is the high-contrast setting. -/
theorem encode_eq_error_iff (cause : Error) :
    param.encode order = .error cause ↔
      param = .highContrast ∧ 512 < Text.Utf16.size order.highContrast.colorScheme ∧
        cause = .tooLong "color scheme" (Text.Utf16.size order.highContrast.colorScheme) 512 := by
  cases param with
  | highContrast =>
    simp only [encode, encodeValue, HighContrast.encode_eq, maxSchemeSize, true_and]
    by_cases hfits : Text.Utf16.size order.highContrast.colorScheme ≤ 512
    · simp [hfits, Except.map, Nat.not_lt.mpr hfits]
    · simp [hfits, Except.map, Nat.lt_of_not_le hfits, eq_comm]
  | _ => simp [encode, encodeValue, Except.map]

end Parameter

/-! ### The mask -/

/-- The mask of a parameter has one bit. -/
theorem Parameter.toNat_mask (param : Parameter) : param.mask.bits.toNat = 2 ^ param.bit := by
  cases param <;> rfl

/-- The bits that have a meaning are those of the parameters. -/
theorem Parameter.testBit_iff (i : Nat) :
    Nat.testBit 0x9F i = true ↔ ∃ param : Parameter, param.bit = i := by
  constructor
  · intro h
    have hi : i < 8 := by
      -- The number is too small for any higher bit.
      apply Nat.lt_of_not_le
      intro hge
      have hsmall : 0x9F < 2 ^ i :=
        Nat.lt_of_lt_of_le (by decide) (Nat.pow_le_pow_right (by decide) hge)
      rw [Nat.testBit_lt_two_pow hsmall] at h
      cases h
    have hall : ∀ j < 8, Nat.testBit 0x9F j = true → ∃ param ∈ Parameter.all, param.bit = j := by
      decide
    obtain ⟨param, -, hbit⟩ := hall i hi h
    exact ⟨param, hbit⟩
  · rintro ⟨param, rfl⟩
    cases param <;> rfl

namespace SystemParameters

variable {order first second : SystemParameters} {param : Parameter}

/-- A mask selects a parameter by its bit. -/
theorem selects_mask_iff : order.params.selects param.mask = true ↔ order.Sets param := by
  rw [ParameterMask.selects, beq_iff_eq, ← UInt32.toNat_inj, UInt32.toNat_and, param.toNat_mask,
    Nat.and_two_pow, Sets]
  cases order.params.bits.toNat.testBit param.bit with
  | true => simp
  | false => simp [(Nat.two_pow_pos param.bit).ne]

/-- The PDUs of an update are those of the parameters that it sets, in the order of the wire. -/
theorem fields_eq (order : SystemParameters) :
    order.fields = Parameter.all.filter fun param => order.Sets param := by
  refine List.filter_congr fun param _ => ?_
  rw [Bool.eq_iff_iff, selects_mask_iff, decide_eq_true_iff]

/-- What an update sets are the settings of its fields. -/
theorem settings_eq (order : SystemParameters) :
    order.settings = order.fields.map order.setting := by
  rw [fields_eq]
  rfl

/-- The fields of an update are the parameters that it sets. -/
theorem mem_fields_iff : param ∈ order.fields ↔ order.Sets param := by
  rw [fields_eq, List.mem_filter, decide_eq_true_iff]
  exact and_iff_right (by cases param <;> decide)

/-- Two masks agree in the bits that have a meaning exactly if they set the same parameters. -/
theorem mask_eq_iff :
    first.params.bits &&& 0x9F = second.params.bits &&& 0x9F ↔
      ∀ param, first.Sets param ↔ second.Sets param := by
  rw [← UInt32.toNat_inj, UInt32.toNat_and, UInt32.toNat_and]
  constructor
  · intro h param
    have hbit := congrArg (fun n => n.testBit param.bit) h
    have hknown : Nat.testBit 0x9F param.bit = true := (Parameter.testBit_iff _).mpr ⟨param, rfl⟩
    simp only [UInt32.reduceToNat, Nat.testBit_and, hknown, Bool.and_true] at hbit
    rw [Sets, Sets, hbit]
  · intro h
    apply Nat.eq_of_testBit_eq
    intro i
    simp only [UInt32.reduceToNat, Nat.testBit_and]
    cases hknown : Nat.testBit 0x9F i with
    | false => rw [Bool.and_false, Bool.and_false]
    | true =>
      obtain ⟨param, rfl⟩ := (Parameter.testBit_iff i).mp hknown
      rw [Bool.and_true, Bool.and_true, Bool.eq_iff_iff]
      exact h param

/-- The setting for a parameter is a setting of that parameter. -/
theorem parameter_setting : (order.setting param).parameter = param := by
  cases param <;> rfl

/-! ### The whole update -/

/-- An update is not written if it sets a high-contrast scheme that is too long. -/
theorem encode_eq_error_iff (order : SystemParameters) (cause : Error) :
    order.encode = .error cause ↔
      order.Sets .highContrast ∧ 512 < Text.Utf16.size order.highContrast.colorScheme ∧
        cause = .tooLong "color scheme" (Text.Utf16.size order.highContrast.colorScheme) 512 := by
  have hfails : ∀ cause, order.encode = .error cause → order.Sets .highContrast ∧
      512 < Text.Utf16.size order.highContrast.colorScheme ∧
      cause = .tooLong "color scheme" (Text.Utf16.size order.highContrast.colorScheme) 512 := by
    intro cause h
    obtain ⟨param, hmem, hparam⟩ := exists_of_mapM_eq_error h
    obtain ⟨rfl, hlong, hcause⟩ := (Parameter.encode_eq_error_iff cause).mp hparam
    exact ⟨mem_fields_iff.mp hmem, hlong, hcause⟩
  constructor
  · exact hfails cause
  · rintro ⟨hsets, hlong, rfl⟩
    cases hencode : order.encode with
    | error cause => rw [(hfails cause hencode).2.2]
    | ok pdus =>
      -- Everything that is set was written, so the scheme was written as well.
      have hmem : Parameter.encode order .highContrast ∈ pdus.map .ok := by
        rw [← mapM_eq_ok_iff.mp hencode]
        exact List.mem_map_of_mem (mem_fields_iff.mpr hsets)
      rw [(Parameter.encode_eq_error_iff _).mpr ⟨rfl, hlong, rfl⟩] at hmem
      obtain ⟨pdu, -, hpdu⟩ := List.mem_map.mp hmem
      cases hpdu

/-- The PDUs of an update are read as its settings. -/
theorem map_read?_of_encode {pdus : List Bytes} (h : order.encode = .ok pdus) :
    pdus.map Setting.read? = order.settings.map some := by
  have hpdus : order.fields.map (Parameter.encode order) = pdus.map .ok := mapM_eq_ok_iff.mp h
  have hread : ∀ param ∈ order.fields,
      (param.encode order).toOption.bind Setting.read? = some (order.setting param) := by
    intro param hmem
    have hparam : param.encode order ∈ pdus.map .ok := hpdus ▸ List.mem_map_of_mem hmem
    obtain ⟨pdu, -, hpdu⟩ := List.mem_map.mp hparam
    rw [← hpdu]
    exact Parameter.read?_of_encode hpdu.symm
  calc pdus.map Setting.read?
      = (pdus.map Except.ok).map fun pdu : Except Error Bytes =>
          pdu.toOption.bind Setting.read? := by
        rw [List.map_map]
        rfl
    _ = order.fields.map fun param => (param.encode order).toOption.bind Setting.read? := by
        rw [← hpdus, List.map_map]
        rfl
    _ = order.settings.map some := by
        rw [settings_eq, List.map_map]
        exact List.map_congr_left hread

/-! ### Two updates -/

/-- What is written of a parameter depends on its own value only. -/
theorem encode_parameter_eq (h : first.setting param = second.setting param) :
    param.encode first = param.encode second := by
  have hvalue : param.encodeValue first = param.encodeValue second := by
    cases param <;> simp only [setting, Setting.highContrast.injEq, Setting.mouseButtonSwap.injEq,
      Setting.keyboardPref.injEq, Setting.dragFullWindows.injEq, Setting.keyboardCues.injEq,
      Setting.workArea.injEq] at h <;> simp only [Parameter.encodeValue, h]
  rw [Parameter.encode, Parameter.encode, hvalue]

/-- Updates that set the same parameters to the same values are written alike. -/
theorem Agrees.encode_eq (h : first.Agrees second) : first.encode = second.encode := by
  have hfields : first.fields = second.fields := by
    rw [fields_eq, fields_eq]
    refine List.filter_congr fun param _ => ?_
    rw [decide_eq_decide]
    exact mask_eq_iff.mp h.mask_eq param
  rw [SystemParameters.encode, SystemParameters.encode, ← hfields]
  have hpdus : first.fields.map (Parameter.encode first)
      = first.fields.map (Parameter.encode second) :=
    List.map_congr_left fun param hmem =>
      encode_parameter_eq (h.setting_eq param (mem_fields_iff.mp hmem))
  have hmapM : ∀ order : SystemParameters, first.fields.mapM (Parameter.encode order)
      = (first.fields.map (Parameter.encode order)).mapM id := by
    intro order
    rw [List.mapM_map]
    rfl
  rw [hmapM, hmapM, hpdus]

/-- Updates with the same settings agree. -/
theorem agrees_of_settings_eq (h : first.settings = second.settings) : first.Agrees second := by
  have hfields : first.fields = second.fields := by
    have hparameters := congrArg (List.map Setting.parameter) h
    simpa [settings_eq, List.map_map, Function.comp_def, parameter_setting] using hparameters
  constructor
  · rw [mask_eq_iff]
    intro param
    rw [← mem_fields_iff, ← mem_fields_iff, hfields]
  · intro param hsets
    rw [settings_eq, settings_eq, hfields] at h
    exact List.map_inj_left.mp h param (hfields ▸ mem_fields_iff.mpr hsets)

end SystemParameters

/-! ### The property -/

/-- What is written of an update of system parameters goes by its mask. It is not written at all if
it sets a high-contrast scheme that does not fit. Otherwise it is written as one PDU for each
parameter that it sets, in the order of the wire, and each of them is read as that parameter with
the value that the update holds for it. The other values and the bits without a meaning leave no
trace: two updates that set the same parameters to the same values are written alike, and only those
are. -/
theorem parameters_follow_mask (order other : SystemParameters) :
    (∀ cause, order.encode = .error cause ↔
      order.Sets .highContrast ∧ 512 < Text.Utf16.size order.highContrast.colorScheme ∧
        cause = .tooLong "color scheme"
          (Text.Utf16.size order.highContrast.colorScheme) 512) ∧
    (∀ pdus, order.encode = .ok pdus → pdus.map Setting.read? = order.settings.map some) ∧
    (order.Agrees other → order.encode = other.encode) ∧
    ∀ pdus, order.encode = .ok pdus → other.encode = .ok pdus → order.Agrees other := by
  refine ⟨order.encode_eq_error_iff, fun pdus => SystemParameters.map_read?_of_encode,
    SystemParameters.Agrees.encode_eq, ?_⟩
  intro pdus horder hother
  -- Both are what the PDUs are read as.
  have hsettings : order.settings.map some = other.settings.map some := by
    rw [← SystemParameters.map_read?_of_encode horder, SystemParameters.map_read?_of_encode hother]
  exact SystemParameters.agrees_of_settings_eq
    ((List.map_inj_right fun _ _ => Option.some.inj).mp hsettings)

/-- An update like `schemeUpdate`, with other values for what neither of them sets, and without the
bits that have no meaning. -/
def plainSchemeUpdate : SystemParameters :=
  ⟨⟨0x88⟩, true, true, true, true, ⟨⟨0x80⟩, "😀"⟩, ⟨1, 2, 3, 4⟩⟩

/-- Nobody can tell the two apart by what is written of them. -/
theorem parameters_follow_mask_scheme :
    schemeUpdate.Agrees plainSchemeUpdate ∧ schemeUpdate.encode = plainSchemeUpdate.encode ∧
      [schemePdu, buttonPdu].map Setting.read?
        = [some (.highContrast ⟨⟨0x80⟩, "😀"⟩), some (.mouseButtonSwap true)] := by
  have hagrees : schemeUpdate.Agrees plainSchemeUpdate :=
    ⟨by decide, fun param => by cases param <;> decide⟩
  have hfollow := parameters_follow_mask schemeUpdate plainSchemeUpdate
  exact ⟨hagrees, hfollow.2.2.1 hagrees, hfollow.2.1 [schemePdu, buttonPdu] (by rfl)⟩

end RemotePrograms
