import RemotePrograms.Text.Utf16

/-!
# `RemotePrograms.Proofs.Text.Utf16`: which octets spell a text

`chars?` reads code units one surrogate pair at a time. Here the code units that it accepts are
described without it, by the grammar `Paired`: every high surrogate is followed by a low one and
no low one stands alone. The octets `IsText` accepts are those of such a run of units. The main
statements:

* `isSome_decode?_iff`: octets can be read exactly if they are `IsText`.
* `decode?_eq_some_iff`: a text is read from its own octets and from no others, so reading and
  writing are inverse to each other.
* `trimNuls_append_nuls` and `getLast?_trimNuls_ne`: `trimNuls` splits a text into one that does
  not end in NUL and a run of NULs.
-/

set_option autoImplicit false

namespace RemotePrograms.Text.Utf16

/-- Code units in which every surrogate has its partner. -/
inductive Paired : List UInt16 → Prop where
  | nil : Paired []
  /-- A unit that is no surrogate stands for itself. -/
  | single {u : UInt16} {rest : List UInt16} :
      ¬IsHigh u → ¬IsLow u → Paired rest → Paired (u :: rest)
  /-- A high surrogate is followed by a low one. -/
  | pair {high low : UInt16} {rest : List UInt16} :
      IsHigh high → IsLow low → Paired rest → Paired (high :: low :: rest)

/-- The code units of octets, lowest octet first. An odd octet at the end is dropped. -/
def codeUnits : Bytes → List UInt16
  | a :: b :: rest => word16 a b :: codeUnits rest
  | _ => []

/-- Octets that spell a text: they are even in number, and their units are paired. -/
def IsText (octets : Bytes) : Prop :=
  octets.length % 2 = 0 ∧ Paired (codeUnits octets)

/-! ### One character -/

/-- The number of a character lies below the surrogates or above them. -/
theorem toNat_char_cases (c : Char) :
    c.toNat < 0xD800 ∨ 0xDFFF < c.toNat ∧ c.toNat < 0x110000 := by
  have h : c.toNat.isValidChar := c.valid
  exact h

/-- A character of the basic plane is one unit, and that unit is no surrogate. -/
theorem units_of_lt {c : Char} (h : c.toNat < 0x10000) :
    ∃ u : UInt16, units c = [u] ∧ u.toNat = c.toNat ∧ ¬IsHigh u ∧ ¬IsLow u := by
  have hvalid := toNat_char_cases c
  have hu : (UInt16.ofNat c.toNat).toNat = c.toNat := by
    rw [UInt16.toNat_ofNat']
    omega
  refine ⟨.ofNat c.toNat, by simp [units, h], hu, ?_, ?_⟩
  · rw [IsHigh, hu]
    omega
  · rw [IsLow, hu]
    omega

/-- Any other character is a pair of surrogates, which carry its number. -/
theorem units_of_ge {c : Char} (h : 0x10000 ≤ c.toNat) :
    ∃ high low : UInt16, units c = [high, low] ∧ IsHigh high ∧ IsLow low ∧
      high.toNat = 0xD800 + (c.toNat - 0x10000) / 0x400 ∧
      low.toNat = 0xDC00 + (c.toNat - 0x10000) % 0x400 := by
  have hvalid := toNat_char_cases c
  have hhigh : (UInt16.ofNat (0xD800 + (c.toNat - 0x10000) / 0x400)).toNat
      = 0xD800 + (c.toNat - 0x10000) / 0x400 := by
    rw [UInt16.toNat_ofNat']
    omega
  have hlow : (UInt16.ofNat (0xDC00 + (c.toNat - 0x10000) % 0x400)).toNat
      = 0xDC00 + (c.toNat - 0x10000) % 0x400 := by
    rw [UInt16.toNat_ofNat']
    omega
  refine ⟨_, _, by rw [units, if_neg (by omega)], ?_, ?_, hhigh, hlow⟩
  · rw [IsHigh, hhigh]
    omega
  · rw [IsLow, hlow]
    omega

/-- The character of a number that is no surrogate has that number. -/
theorem toNat_ofNat {n : Nat} (h : n < 0xD800 ∨ 0xDFFF < n ∧ n < 0x110000) :
    (Char.ofNat n).toNat = n := by
  have hvalid : n.isValidChar := h
  unfold Char.ofNat
  rw [dif_pos hvalid]
  rfl

/-- The character of a unit that is no surrogate has that unit. -/
theorem units_ofNat {u : UInt16} (hhigh : ¬IsHigh u) (hlow : ¬IsLow u) :
    units (.ofNat u.toNat) = [u] := by
  have hlt := u.toNat_lt
  rw [IsHigh] at hhigh
  rw [IsLow] at hlow
  have hc : (Char.ofNat u.toNat).toNat = u.toNat := toNat_ofNat (by omega)
  rw [units, hc, if_pos (by omega), UInt16.ofNat_toNat]

/-- The character of a pair has the number that the two surrogates make up. -/
theorem toNat_pair {high low : UInt16} (hhigh : IsHigh high) (hlow : IsLow low) :
    (pair high low).toNat
      = 0x10000 + (high.toNat - 0xD800) * 0x400 + (low.toNat - 0xDC00) := by
  rw [IsHigh] at hhigh
  rw [IsLow] at hlow
  exact toNat_ofNat (by omega)

/-- The character of a pair has that pair as its units. -/
theorem units_pair {high low : UInt16} (hhigh : IsHigh high) (hlow : IsLow low) :
    units (pair high low) = [high, low] := by
  have hnum := toNat_pair hhigh hlow
  rw [IsHigh] at hhigh
  rw [IsLow] at hlow
  have hge : 0x10000 ≤ (pair high low).toNat := by omega
  obtain ⟨high', low', hunits, -, -, hh, hl⟩ := units_of_ge hge
  rw [hunits]
  -- The number of the pair determines both of its units.
  have h1 : high' = high := UInt16.toNat_inj.mp (by omega)
  have h2 : low' = low := UInt16.toNat_inj.mp (by omega)
  rw [h1, h2]

/-! ### Runs of units -/

/-- A unit that is no surrogate reads as its own character, whatever follows it. -/
theorem chars?_single {u : UInt16} (rest : List UInt16) (hhigh : ¬IsHigh u) (hlow : ¬IsLow u) :
    chars? (u :: rest) = (chars? rest).map (.ofNat u.toNat :: ·) := by
  cases rest with
  | nil => simp [chars?, hhigh, hlow]
  | cons v rest => simp [chars?, hhigh, hlow]

/-- A pair is decoded as one character, and the rest behind it. -/
theorem chars?_pair {high low : UInt16} (rest : List UInt16) (hhigh : IsHigh high)
    (hlow : IsLow low) :
    chars? (high :: low :: rest) = (chars? rest).map (pair high low :: ·) := by
  simp [chars?, hhigh, hlow]

/-- Writing characters as units and reading them gives the characters back. -/
theorem chars?_flatMap_units (cs : List Char) : chars? (cs.flatMap units) = some cs := by
  induction cs with
  | nil => rfl
  | cons c cs ih =>
    rw [List.flatMap_cons]
    -- A character of the basic plane, or one of those beyond it.
    cases Nat.lt_or_ge c.toNat 0x10000 with
    | inl hlt =>
      obtain ⟨u, hunits, hnum, hhigh, hlow⟩ := units_of_lt hlt
      rw [hunits, List.singleton_append, chars?_single _ hhigh hlow, ih, hnum]
      simp [Char.ofNat_toNat]
    | inr hge =>
      have hvalid := toNat_char_cases c
      obtain ⟨high, low, hunits, hhigh, hlow, hh, hl⟩ := units_of_ge hge
      have hpair : pair high low = c := by
        apply Char.toNat_inj.mp
        rw [toNat_pair hhigh hlow, hh, hl]
        omega
      rw [hunits, List.cons_append, List.singleton_append, chars?_pair _ hhigh hlow, ih, hpair]
      rfl

/-- Units are read only if they are those of the characters that come out. -/
theorem eq_flatMap_units {us : List UInt16} {cs : List Char} (h : chars? us = some cs) :
    us = cs.flatMap units := by
  -- The cases are those of `chars?`: units that it refuses spell nothing.
  fun_induction chars? us generalizing cs with
  | case1 => simp_all
  | case2 u => simp at h
  | case3 u hsur =>
    obtain ⟨hhigh, hlow⟩ := not_or.mp hsur
    cases h
    simp [units_ofNat hhigh hlow]
  | case4 u v rest hhigh hlow ih =>
    obtain ⟨tail, htail, rfl⟩ := Option.map_eq_some_iff.mp h
    rw [List.flatMap_cons, units_pair hhigh hlow, ← ih htail]
    rfl
  | case5 => simp at h
  | case6 => simp at h
  | case7 u v rest hhigh hlow ih =>
    obtain ⟨tail, htail, rfl⟩ := Option.map_eq_some_iff.mp h
    rw [List.flatMap_cons, units_ofNat hhigh hlow, ← ih htail]
    rfl

/-- The units of characters are paired. -/
theorem paired_flatMap_units (cs : List Char) : Paired (cs.flatMap units) := by
  induction cs with
  | nil => exact .nil
  | cons c cs ih =>
    rw [List.flatMap_cons]
    cases Nat.lt_or_ge c.toNat 0x10000 with
    | inl hlt =>
      obtain ⟨u, hunits, -, hhigh, hlow⟩ := units_of_lt hlt
      rw [hunits]
      exact .single hhigh hlow ih
    | inr hge =>
      obtain ⟨high, low, hunits, hhigh, hlow, -, -⟩ := units_of_ge hge
      rw [hunits]
      exact .pair hhigh hlow ih

/-- Units can be read exactly if they are paired. -/
theorem exists_chars?_iff (us : List UInt16) : (∃ cs, chars? us = some cs) ↔ Paired us := by
  constructor
  · rintro ⟨cs, h⟩
    rw [eq_flatMap_units h]
    exact paired_flatMap_units cs
  · intro h
    induction h with
    | nil => exact ⟨[], rfl⟩
    | single hhigh hlow _ ih =>
      obtain ⟨cs, hcs⟩ := ih
      exact ⟨_, by rw [chars?_single _ hhigh hlow, hcs]; rfl⟩
    | pair hhigh hlow _ ih =>
      obtain ⟨cs, hcs⟩ := ih
      exact ⟨_, by rw [chars?_pair _ hhigh hlow, hcs]; rfl⟩

/-! ### Octets -/

/-- Octets fall into units exactly if they are even in number. -/
theorem units?_eq (octets : Bytes) :
    units? octets = if octets.length % 2 = 0 then some (codeUnits octets) else none := by
  fun_induction units? octets with
  | case1 => rfl
  | case2 a => rfl
  | case3 a b rest ih =>
    rw [ih]
    have hparity : (a :: b :: rest).length % 2 = rest.length % 2 := by
      simp only [List.length_cons]
      omega
    rw [hparity]
    split <;> rfl

/-- Units written as octets are the units of those octets, and the octets are even in number. -/
theorem codeUnits_flatMap_le16 (us : List UInt16) :
    (us.flatMap le16).length % 2 = 0 ∧ codeUnits (us.flatMap le16) = us := by
  induction us with
  | nil => exact ⟨rfl, rfl⟩
  | cons u us ih =>
    rw [List.flatMap_cons]
    refine ⟨?_, ?_⟩
    · rw [List.length_append, length_le16]
      omega
    · rw [le16, List.cons_append, List.singleton_append, codeUnits, word16_le16, ih.2]

/-- A unit is written as the octets that it was read from. -/
theorem le16_word16 (a b : UInt8) : le16 (word16 a b) = [a, b] := by
  have ha := a.toNat_lt
  have hb := b.toNat_lt
  have hw : (word16 a b).toNat = a.toNat + 0x100 * b.toNat := by
    simp only [word16, UInt16.toNat_add, UInt16.toNat_mul, UInt8.toNat_toUInt16,
      UInt16.reduceToNat]
    omega
  have h1 : (word16 a b).toUInt8 = a := UInt8.toNat_inj.mp (by
    rw [UInt16.toNat_toUInt8, hw]
    omega)
  have h2 : (word16 a b / 0x100).toUInt8 = b := UInt8.toNat_inj.mp (by
    simp only [UInt16.toNat_toUInt8, UInt16.toNat_div, hw, UInt16.reduceToNat]
    omega)
  rw [le16, h1, h2]

/-- Octets that are even in number are written as they were read. -/
theorem flatMap_codeUnits {octets : Bytes} (h : octets.length % 2 = 0) :
    (codeUnits octets).flatMap le16 = octets := by
  fun_induction codeUnits octets with
  | case1 a b rest ih =>
    have hrest : rest.length % 2 = 0 := by
      simp only [List.length_cons] at h
      omega
    rw [List.flatMap_cons, le16_word16, ih hrest]
    rfl
  | case2 octets hshort =>
    match octets with
    | [] => rfl
    | [_] => simp at h
    | a :: b :: rest => exact absurd rfl (hshort a b rest)

/-- Octets can be read exactly if they spell a text. -/
theorem isSome_decode?_iff (octets : Bytes) : (decode? octets).isSome ↔ IsText octets := by
  rw [decode?, units?_eq, IsText, ← exists_chars?_iff]
  split
  · rename_i heven
    simp [heven, Option.isSome_iff_exists]
  · rename_i hodd
    simp [hodd]

/-- A text is read from its own octets, and from no others. -/
theorem decode?_eq_some_iff (octets : Bytes) (text : String) :
    decode? octets = some text ↔ octets = encode text := by
  constructor
  · intro h
    rw [decode?, units?_eq] at h
    split at h
    · rename_i heven
      obtain ⟨cs, hcs, rfl⟩ := Option.map_eq_some_iff.mp h
      rw [encode, String.toList_ofList, ← eq_flatMap_units hcs, flatMap_codeUnits heven]
    · cases h
  · rintro rfl
    obtain ⟨heven, hunits⟩ := codeUnits_flatMap_le16 (text.toList.flatMap units)
    rw [decode?, encode, units?_eq, if_pos heven, hunits, Option.bind_some, chars?_flatMap_units]
    simp

/-! ### NULs at the end -/

/-- What `trimNuls` takes off a text are NULs at its end. -/
theorem trimNuls_append_nuls (text : String) :
    ∃ n, text.toList = (trimNuls text).toList ++ List.replicate n '\x00' := by
  obtain ⟨n, hn⟩ : ∃ n, text.toList.reverse.takeWhile (· == '\x00') = List.replicate n '\x00' := by
    refine ⟨_, List.eq_replicate_of_mem fun c hc => ?_⟩
    have hall := List.all_takeWhile (p := (· == '\x00')) (l := text.toList.reverse)
    simpa using List.all_eq_true.mp hall c hc
  -- The NULs at the end stand in front when the text is read backwards.
  have hsplit := List.takeWhile_append_dropWhile (p := (· == '\x00')) (l := text.toList.reverse)
  refine ⟨n, ?_⟩
  calc text.toList = text.toList.reverse.reverse := (List.reverse_reverse _).symm
    _ = (List.replicate n '\x00' ++ text.toList.reverse.dropWhile (· == '\x00')).reverse := by
        rw [← hn, hsplit]
    _ = (trimNuls text).toList ++ List.replicate n '\x00' := by
        rw [List.reverse_append, List.reverse_replicate, trimNuls, String.toList_ofList]

/-- A text does not end in NUL once `trimNuls` has been at it. -/
theorem getLast?_trimNuls_ne (text : String) : (trimNuls text).toList.getLast? ≠ some '\x00' := by
  rw [trimNuls, String.toList_ofList, List.getLast?_reverse]
  intro h
  have hhead := List.head?_dropWhile_not (p := (· == '\x00')) (l := text.toList.reverse)
  rw [h] at hhead
  simp at hhead

/-- There is only one way to split NULs off the end of a text so that none is left. -/
theorem trimNuls_eq {text program : String} {n : Nat}
    (hsplit : text.toList = program.toList ++ List.replicate n '\x00')
    (hlast : program.toList.getLast? ≠ some '\x00') : trimNuls text = program := by
  have hnuls : ∀ c ∈ List.replicate n '\x00', (c == '\x00') = true := by
    intro c hc
    simp [List.eq_of_mem_replicate hc]
  have hkeep : program.toList.reverse.dropWhile (· == '\x00') = program.toList.reverse := by
    cases hrev : program.toList.reverse with
    | nil => rfl
    | cons c cs =>
      -- The last character of the program stops the trimming.
      have hc : c ≠ '\x00' := by
        intro heq
        rw [← List.head?_reverse, hrev, heq] at hlast
        exact hlast rfl
      simp [hc]
  rw [trimNuls, hsplit, List.reverse_append, List.reverse_replicate,
    List.dropWhile_append_of_pos hnuls, hkeep, List.reverse_reverse, String.ofList_toList]

end RemotePrograms.Text.Utf16
