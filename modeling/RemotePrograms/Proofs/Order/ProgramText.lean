import RemotePrograms.Proofs.Order.RoundTrip

/-!
# `RemotePrograms.Proofs.Order.ProgramText`: a program's text as octets

A program travels as UTF-16. `decodeProgram` reads the octets of its field: it takes them for code
units, puts the surrogates together, and drops the NULs at the end. Two facts about units stand
behind it.

* `paired_iff`: the grammar `Paired` reads units from the left. Place by place it says that no
  surrogate stands alone, `NoneAlone`. A high one has a low one behind it, and a low one has a high
  one before it.
* `encode_of_append_nuls`: a NUL at the end of a text is a unit of its own, and that unit is zero.

`decodeProgram_eq_ok_iff` is the reader in one line. It gives texts that do not end in NUL, and it
gives such a text for its own octets with zero units behind them and for no others. `program_text`
puts all of this together.
-/

set_option autoImplicit false

namespace RemotePrograms

namespace Text.Utf16

/-! ### Surrogates place by place -/

/-- A high surrogate stands at this place. -/
def HighAt (us : List UInt16) (i : Nat) : Prop :=
  ∃ u, us[i]? = some u ∧ IsHigh u

/-- A low surrogate stands at this place. -/
def LowAt (us : List UInt16) (i : Nat) : Prop :=
  ∃ u, us[i]? = some u ∧ IsLow u

/-- No surrogate stands alone: each has its partner beside it, the high one first. -/
structure NoneAlone (us : List UInt16) : Prop where
  high : ∀ i, HighAt us i → LowAt us (i + 1)
  low : ∀ i, LowAt us i → ∃ j, i = j + 1 ∧ HighAt us j

/-- No surrogate is both low and high. -/
theorem not_isHigh_of_isLow {u : UInt16} (h : IsLow u) : ¬IsHigh u := by
  rw [IsLow] at h
  rw [IsHigh]
  omega

section Places

variable {us : List UInt16} {u : UInt16} {i : Nat}

/-- A high surrogate stands at the first place if and only if the first unit is one. -/
@[simp] theorem highAt_cons_zero : HighAt (u :: us) 0 ↔ IsHigh u := by
  simp [HighAt]

/-- A low surrogate stands at the first place if and only if the first unit is one. -/
@[simp] theorem lowAt_cons_zero : LowAt (u :: us) 0 ↔ IsLow u := by
  simp [LowAt]

/-- A high surrogate stands one place further on when a unit is put in front. -/
@[simp] theorem highAt_cons_succ : HighAt (u :: us) (i + 1) ↔ HighAt us i := by
  rw [HighAt, HighAt, List.getElem?_cons_succ]

/-- A low surrogate stands one place further on when a unit is put in front. -/
@[simp] theorem lowAt_cons_succ : LowAt (u :: us) (i + 1) ↔ LowAt us i := by
  rw [LowAt, LowAt, List.getElem?_cons_succ]

end Places

/-- Where there are no units, none stands alone. -/
theorem noneAlone_nil : NoneAlone [] := by
  constructor
  · rintro i ⟨u, hu, -⟩
    simp at hu
  · rintro i ⟨u, hu, -⟩
    simp at hu

/-- A unit that is no surrogate changes nothing for the units behind it. -/
theorem noneAlone_cons_iff {u : UInt16} {rest : List UInt16} (hhigh : ¬IsHigh u)
    (hlow : ¬IsLow u) : NoneAlone (u :: rest) ↔ NoneAlone rest := by
  constructor
  · intro h
    constructor
    · intro i hi
      simpa using h.high (i + 1) (by simpa using hi)
    · intro i hi
      obtain ⟨j, hj, hpartner⟩ := h.low (i + 1) (by simpa using hi)
      cases j with
      -- The partner cannot be the unit in front, which is no surrogate.
      | zero => exact absurd (by simpa using hpartner) hhigh
      | succ j => exact ⟨j, by omega, by simpa using hpartner⟩
  · intro h
    constructor
    · intro i hi
      cases i with
      | zero => exact absurd (by simpa using hi) hhigh
      | succ i => simpa using h.high i (by simpa using hi)
    · intro i hi
      cases i with
      | zero => exact absurd (by simpa using hi) hlow
      | succ i =>
        obtain ⟨j, rfl, hpartner⟩ := h.low i (by simpa using hi)
        exact ⟨j + 1, rfl, by simpa using hpartner⟩

/-- A pair changes nothing for the units behind it. -/
theorem noneAlone_pair_iff {high low : UInt16} {rest : List UInt16} (hhigh : IsHigh high)
    (hlow : IsLow low) : NoneAlone (high :: low :: rest) ↔ NoneAlone rest := by
  have hlow' := not_isHigh_of_isLow hlow
  constructor
  · intro h
    constructor
    · intro i hi
      simpa using h.high (i + 2) (by simpa using hi)
    · intro i hi
      obtain ⟨j, hj, hpartner⟩ := h.low (i + 2) (by simpa using hi)
      obtain rfl : j = i + 1 := by omega
      -- The low one of the pair is nobody's partner a second time.
      cases i with
      | zero => exact absurd (by simpa using hpartner) hlow'
      | succ i => exact ⟨i, rfl, by simpa using hpartner⟩
  · intro h
    constructor
    · rintro (_ | _ | i) hi
      · simpa using hlow
      · exact absurd (by simpa using hi) hlow'
      · simpa using h.high i (by simpa using hi)
    · rintro (_ | _ | i) hi
      · exact absurd hhigh (not_isHigh_of_isLow (by simpa using hi))
      · exact ⟨0, rfl, by simpa using hhigh⟩
      · obtain ⟨j, rfl, hpartner⟩ := h.low i (by simpa using hi)
        exact ⟨j + 2, rfl, by simpa using hpartner⟩

/-- Units in which no surrogate stands alone are paired. -/
theorem NoneAlone.paired {us : List UInt16} (h : NoneAlone us) : Paired us := by
  -- The cases are those of the reader `chars?`. Where it refuses, a surrogate stands alone.
  fun_induction chars? us with
  | case1 => exact .nil
  | case2 u hsur =>
    exfalso
    obtain hhigh | hlow := hsur
    · obtain ⟨v, hv, -⟩ := h.high 0 (by simpa using hhigh)
      simp at hv
    · obtain ⟨j, hj, -⟩ := h.low 0 (by simpa using hlow)
      omega
  | case3 u hsur =>
    obtain ⟨hhigh, hlow⟩ := not_or.mp hsur
    exact .single hhigh hlow .nil
  | case4 u v rest hhigh hlow ih =>
    exact .pair hhigh hlow (ih ((noneAlone_pair_iff hhigh hlow).mp h))
  | case5 u v rest hhigh hlow => exact absurd (by simpa using h.high 0 (by simpa using hhigh)) hlow
  | case6 u v rest hhigh hlow =>
    obtain ⟨j, hj, -⟩ := h.low 0 (by simpa using hlow)
    omega
  | case7 u v rest hhigh hlow ih =>
    exact .single hhigh hlow (ih ((noneAlone_cons_iff hhigh hlow).mp h))

/-- Units are paired exactly if no surrogate among them stands alone. -/
theorem paired_iff (us : List UInt16) : Paired us ↔ NoneAlone us := by
  constructor
  · intro h
    induction h with
    | nil => exact noneAlone_nil
    | single hhigh hlow _ ih => exact (noneAlone_cons_iff hhigh hlow).mpr ih
    | pair hhigh hlow _ ih => exact (noneAlone_pair_iff hhigh hlow).mpr ih
  · exact NoneAlone.paired

/-- Octets spell a text if they are even in number and no surrogate among them stands alone. -/
theorem isText_iff (octets : Bytes) :
    IsText octets ↔ octets.length % 2 = 0 ∧ NoneAlone (codeUnits octets) := by
  rw [IsText, paired_iff]

/-! ### NULs -/

/-- A run of zero units as octets. -/
def nulUnits (n : Nat) : Bytes :=
  (List.replicate n (0 : UInt16)).flatMap le16

/-- A zero unit takes two octets. -/
theorem length_nulUnits (n : Nat) : (nulUnits n).length = 2 * n := by
  simp [nulUnits, List.flatMap_replicate]
  omega

/-- NULs are written as zero units. -/
theorem flatMap_units_replicate (n : Nat) :
    (List.replicate n '\x00').flatMap units = List.replicate n 0 := by
  induction n with
  | zero => rfl
  | succ n ih =>
    rw [List.replicate_succ, List.flatMap_cons, ih, List.replicate_succ]
    rfl

/-- NULs at the end of a text are zero units at the end of its octets. -/
theorem encode_of_append_nuls {text program : String} {n : Nat}
    (h : text.toList = program.toList ++ List.replicate n '\x00') :
    encode text = encode program ++ nulUnits n := by
  rw [encode, h, List.flatMap_append, flatMap_units_replicate, List.flatMap_append]
  rfl

/-- The last unit of a text is zero exactly if its last character is NUL. -/
theorem getLast?_flatMap_units (cs : List Char) :
    (cs.flatMap units).getLast? = some 0 ↔ cs.getLast? = some '\x00' := by
  obtain rfl | ⟨cs, c, rfl⟩ := List.eq_nil_or_concat cs
  · simp
  rw [List.concat_eq_append, List.flatMap_append, List.flatMap_singleton, List.getLast?_concat,
    Option.some.injEq]
  -- A character of the basic plane is its own unit. A low surrogate is not zero.
  cases Nat.lt_or_ge c.toNat 0x10000 with
  | inl hlt =>
    obtain ⟨u, hunits, hnum, -, -⟩ := units_of_lt hlt
    rw [hunits, List.getLast?_concat, Option.some.injEq, ← UInt16.toNat_inj, hnum,
      ← Char.toNat_inj]
    rfl
  | inr hge =>
    obtain ⟨high, low, hunits, -, hlow, -, -⟩ := units_of_ge hge
    have hsplit : cs.flatMap units ++ [high, low] = (cs.flatMap units ++ [high]) ++ [low] := by
      simp
    rw [hunits, hsplit, List.getLast?_concat, Option.some.injEq]
    constructor
    · rintro rfl
      exact absurd hlow (by decide)
    · rintro rfl
      exact absurd hge (by decide)

/-- Behind a text that does not end in NUL, a zero unit at the end was put there. -/
theorem getLast?_codeUnits_append_nulUnits {program : String} (n : Nat)
    (hlast : program.toList.getLast? ≠ some '\x00') :
    (codeUnits (encode program ++ nulUnits n)).getLast? ≠ some 0 ↔ n = 0 := by
  have htext : (String.ofList (program.toList ++ List.replicate n '\x00')).toList
      = program.toList ++ List.replicate n '\x00' := String.toList_ofList
  rw [← encode_of_append_nuls htext, encode, (codeUnits_flatMap_le16 _).2, Ne,
    getLast?_flatMap_units, htext]
  cases n with
  | zero => simpa using hlast
  | succ n => simp [List.replicate_succ']

/-- No two texts have the same octets. -/
theorem encode_injective : Function.Injective encode := by
  intro first second h
  have hfirst := (decode?_eq_some_iff (encode first) first).mpr rfl
  have hsecond := (decode?_eq_some_iff (encode first) second).mpr h
  exact Option.some.inj (hfirst.symm.trans hsecond)

end Text.Utf16

open Text.Utf16

/-! ### Reading a program -/

section Program

variable (octets rest : Bytes)

/-- A field of a program holds the octets of some text, or it spells no text. What lies behind the
field plays no part. -/
theorem decodeProgram_cases :
    (∃ text, octets = encode text ∧
      decodeProgram octets.length (octets ++ rest) = .ok (trimNuls text)) ∨
    (¬IsText octets ∧
      decodeProgram octets.length (octets ++ rest) = .error (.badText "exec result program")) := by
  have hsize : octets.length ≤ (octets ++ rest).length := by simp
  have htake : (octets ++ rest).take octets.length = octets := List.take_left
  by_cases htext : IsText octets
  · obtain ⟨text, hdecode⟩ := Option.isSome_iff_exists.mp ((isSome_decode?_iff _).mpr htext)
    have hoctets := (decode?_eq_some_iff _ _).mp hdecode
    exact .inl ⟨text, hoctets, decodeProgram_of_eq_encode hsize (htake.trans hoctets)⟩
  · exact .inr ⟨htext, decodeProgram_of_not_isText hsize (by rwa [htake])⟩

/-- What a text is written as spells a text. -/
theorem isText_encode (text : String) : IsText (encode text) := by
  rw [← isSome_decode?_iff, (decode?_eq_some_iff _ text).mpr rfl]
  rfl

/-- Octets are refused exactly if they spell no text. -/
theorem decodeProgram_eq_error_iff (cause : Error) :
    decodeProgram octets.length (octets ++ rest) = .error cause ↔
      ¬IsText octets ∧ cause = .badText "exec result program" := by
  obtain ⟨text, hoctets, hdecode⟩ | ⟨htext, hdecode⟩ := decodeProgram_cases octets rest
  · rw [hdecode]
    constructor
    · intro h
      cases h
    · rintro ⟨hno, -⟩
      rw [hoctets] at hno
      exact absurd (isText_encode text) hno
  · rw [hdecode, Except.error.injEq]
    constructor
    · rintro rfl
      exact ⟨htext, rfl⟩
    · rintro ⟨-, rfl⟩
      rfl

/-- A program is read if and only if its octets spell a text. -/
theorem exists_decodeProgram_iff :
    (∃ program, decodeProgram octets.length (octets ++ rest) = .ok program) ↔ IsText octets := by
  obtain ⟨text, hoctets, hdecode⟩ | ⟨htext, hdecode⟩ := decodeProgram_cases octets rest
  · rw [hdecode, hoctets]
    exact ⟨fun _ => isText_encode text, fun _ => ⟨_, rfl⟩⟩
  · rw [hdecode]
    constructor
    · rintro ⟨program, h⟩
      cases h
    · intro h
      exact absurd h htext

/-- A program is read from its own octets with zero units behind them, and from no others. -/
theorem decodeProgram_eq_ok_iff (program : String) :
    decodeProgram octets.length (octets ++ rest) = .ok program ↔
      (∃ n, octets = encode program ++ nulUnits n) ∧
        program.toList.getLast? ≠ some '\x00' := by
  constructor
  · intro h
    obtain ⟨text, hoctets, hdecode⟩ | ⟨-, hdecode⟩ := decodeProgram_cases octets rest
    · rw [hdecode] at h
      cases h
      obtain ⟨n, hn⟩ := trimNuls_append_nuls text
      exact ⟨⟨n, hoctets.trans (encode_of_append_nuls hn)⟩, getLast?_trimNuls_ne text⟩
    · rw [hdecode] at h
      cases h
  · rintro ⟨⟨n, hoctets⟩, hlast⟩
    -- The field holds the program and so many NULs.
    have htext : (String.ofList (program.toList ++ List.replicate n '\x00')).toList
        = program.toList ++ List.replicate n '\x00' := String.toList_ofList
    rw [← encode_of_append_nuls htext] at hoctets
    rw [decodeProgram_of_eq_encode (by simp) (List.take_left.trans hoctets),
      trimNuls_eq htext hlast]

end Program

/-! ### The property -/

/-- The text of a program there and back. A text takes two octets for a character of the basic plane
and four for any other, and it is read without the NULs at its end, of which it loses no more and no
other. Octets are read exactly if they are even in number and no surrogate stands alone among their
units. What is read then does not end in NUL, and the octets are those of this text with zero units
behind them. No two texts have the same octets. -/
theorem program_text :
    (∀ (text : String) (rest : Bytes),
      (encode text).length = size text ∧
      decodeProgram (size text) (encode text ++ rest) = .ok (trimNuls text) ∧
      (∃ n, text.toList = (trimNuls text).toList ++ List.replicate n '\x00') ∧
      (trimNuls text).toList.getLast? ≠ some '\x00') ∧
    (∀ octets rest : Bytes,
      ((∃ program, decodeProgram octets.length (octets ++ rest) = .ok program) ↔
        octets.length % 2 = 0 ∧ NoneAlone (codeUnits octets)) ∧
      (∀ cause, decodeProgram octets.length (octets ++ rest) = .error cause ↔
        ¬(octets.length % 2 = 0 ∧ NoneAlone (codeUnits octets)) ∧
          cause = .badText "exec result program") ∧
      ∀ program, decodeProgram octets.length (octets ++ rest) = .ok program ↔
        (∃ n, octets = encode program ++ nulUnits n) ∧
          program.toList.getLast? ≠ some '\x00') ∧
    Function.Injective encode := by
  refine ⟨fun text rest => ?_, fun octets rest => ?_, encode_injective⟩
  · obtain ⟨n, hn⟩ := trimNuls_append_nuls text
    have hread := (decodeProgram_eq_ok_iff (encode text) rest (trimNuls text)).mpr
      ⟨⟨n, encode_of_append_nuls hn⟩, getLast?_trimNuls_ne text⟩
    -- The size in front of a program is that of its own octets.
    rw [length_encode] at hread
    exact ⟨length_encode text, hread, ⟨n, hn⟩, getLast?_trimNuls_ne text⟩
  · rw [← isText_iff]
    exact ⟨exists_decodeProgram_iff octets rest, decodeProgram_eq_error_iff octets rest,
      decodeProgram_eq_ok_iff octets rest⟩

/-- A NUL inside a text stays and two behind it go, next to a character beyond the basic plane. The
two halves of that character in the wrong order are no text. -/
theorem program_text_reversed :
    decodeProgram 12 ([0x61, 0, 0, 0, 0x3D, 0xD8, 0, 0xDE, 0, 0, 0, 0] ++ [0xFF])
        = .ok "a\x00😀" ∧
      decodeProgram 4 ([0, 0xDE, 0x3D, 0xD8] ++ []) = .error (.badText "exec result program") := by
  constructor
  · exact ((program_text.2.1 _ _).2.2 "a\x00😀").mpr ⟨⟨2, by decide⟩, by decide⟩
  · refine ((program_text.2.1 [0, 0xDE, 0x3D, 0xD8] []).2.1 _).mpr ⟨fun h => ?_, rfl⟩
    obtain ⟨j, hj, -⟩ := h.2.low 0 ⟨0xDE00, rfl, by decide⟩
    omega

end RemotePrograms
