import PlotEmbedding.Text.Units

/-!
# Decoding and encoding are inverse

Each text has one spelling in UTF-16 units, and units that are well formed spell one text:
`decode_eq_some_iff` says that units are decoded to a text if and only if they are the units of that
text. It is shown for one character first. A character up to U+FFFF is no surrogate, so its unit
stands for itself; every other one has a pair of surrogates, and each pair stands for one such
character.
-/

namespace PlotEmbedding.Text

/-- A unit opens a surrogate pair if it lies in the first half of the surrogates. -/
theorem isHighSurrogate_iff (u : UInt16) :
    isHighSurrogate u = true ↔ 0xD800 ≤ u.toNat ∧ u.toNat < 0xDC00 := by
  simp [isHighSurrogate, UInt16.le_iff_toNat_le, UInt16.lt_iff_toNat_lt]

/-- A unit closes a surrogate pair if it lies in the second half of the surrogates. -/
theorem isLowSurrogate_iff (u : UInt16) :
    isLowSurrogate u = true ↔ 0xDC00 ≤ u.toNat ∧ u.toNat < 0xE000 := by
  simp [isLowSurrogate, UInt16.le_iff_toNat_le, UInt16.lt_iff_toNat_lt]

/-- No character is a surrogate. -/
theorem toNat_valid (c : Char) : c.toNat < 0xD800 ∨ 0xDFFF < c.toNat ∧ c.toNat < 0x110000 :=
  c.valid

/-- The character of a valid code point has that code point. -/
theorem toNat_ofNat {n : Nat} (h : n.isValidChar) : (Char.ofNat n).toNat = n := by
  rw [Char.ofNat, dif_pos h]
  rfl

/-! ## One character -/

/-- A character is read back from its units, whatever follows. -/
theorem decodeChars_encodeChar (c : Char) (rest : List UInt16) :
    decodeChars (encodeChar c ++ rest) = (decodeChars rest).map (c :: ·) := by
  have valid := toNat_valid c
  unfold encodeChar
  split
  · next small =>
    have same : c.toNat.toUInt16.toNat = c.toNat := by
      simp only [Nat.toUInt16_eq, UInt16.toNat_ofNat']
      omega
    have high : ¬ isHighSurrogate c.toNat.toUInt16 = true := by
      rw [isHighSurrogate_iff]
      omega
    have low : ¬ isLowSurrogate c.toNat.toUInt16 = true := by
      rw [isLowSurrogate_iff]
      omega
    rw [List.singleton_append, decodeChars.eq_def]
    simp only [if_neg high, if_neg low, same, Char.ofNat_toNat]
  · next large =>
    have sameHigh : (0xD800 + (c.toNat - 0x10000) / 0x400).toUInt16.toNat =
        0xD800 + (c.toNat - 0x10000) / 0x400 := by
      simp only [Nat.toUInt16_eq, UInt16.toNat_ofNat']
      omega
    have sameLow : (0xDC00 + (c.toNat - 0x10000) % 0x400).toUInt16.toNat =
        0xDC00 + (c.toNat - 0x10000) % 0x400 := by
      simp only [Nat.toUInt16_eq, UInt16.toNat_ofNat']
      omega
    have high : isHighSurrogate (0xD800 + (c.toNat - 0x10000) / 0x400).toUInt16 = true := by
      rw [isHighSurrogate_iff]
      omega
    have low : isLowSurrogate (0xDC00 + (c.toNat - 0x10000) % 0x400).toUInt16 = true := by
      rw [isLowSurrogate_iff]
      omega
    -- The surrogates carry ten bits each, and put together they are what was split.
    have paired : pairedChar (0xD800 + (c.toNat - 0x10000) / 0x400).toUInt16
        (0xDC00 + (c.toNat - 0x10000) % 0x400).toUInt16 = c := by
      have whole : 0x10000 + (0xD800 + (c.toNat - 0x10000) / 0x400 - 0xD800) * 0x400 +
          (0xDC00 + (c.toNat - 0x10000) % 0x400 - 0xDC00) = c.toNat := by omega
      rw [pairedChar, sameHigh, sameLow, whole, Char.ofNat_toNat]
    rw [List.cons_append, List.singleton_append, decodeChars, if_pos high]
    simp only [if_pos low, paired]

/-- A surrogate pair is the spelling of its character. -/
theorem encodeChar_pairedChar {high low : UInt16} (hhigh : isHighSurrogate high = true)
    (hlow : isLowSurrogate low = true) : encodeChar (pairedChar high low) = [high, low] := by
  rw [isHighSurrogate_iff] at hhigh
  rw [isLowSurrogate_iff] at hlow
  have point : (pairedChar high low).toNat =
      0x10000 + (high.toNat - 0xD800) * 0x400 + (low.toNat - 0xDC00) := by
    refine toNat_ofNat (.inr ⟨?_, ?_⟩) <;> omega
  have first : 0xD800 + (0x10000 + (high.toNat - 0xD800) * 0x400 + (low.toNat - 0xDC00) -
      0x10000) / 0x400 = high.toNat := by omega
  have second : 0xDC00 + (0x10000 + (high.toNat - 0xD800) * 0x400 + (low.toNat - 0xDC00) -
      0x10000) % 0x400 = low.toNat := by omega
  rw [encodeChar, point, if_neg (by omega), first, second]
  simp

/-- A unit that is no surrogate is the spelling of its character. -/
theorem encodeChar_ofNat {u : UInt16} (high : ¬ isHighSurrogate u = true)
    (low : ¬ isLowSurrogate u = true) : encodeChar (Char.ofNat u.toNat) = [u] := by
  rw [isHighSurrogate_iff] at high
  rw [isLowSurrogate_iff] at low
  have small : u.toNat < 0x10000 := u.toNat_lt
  have point : (Char.ofNat u.toNat).toNat = u.toNat := by
    refine toNat_ofNat ?_
    unfold Nat.isValidChar
    omega
  rw [encodeChar, point, if_pos small]
  simp

/-! ## Whole texts -/

/-- A text is read back from its units. -/
theorem decodeChars_flatMap (cs : List Char) : decodeChars (cs.flatMap encodeChar) = some cs := by
  induction cs with
  | nil => rfl
  | cons c cs ih => rw [List.flatMap_cons, decodeChars_encodeChar, ih]; rfl

/-- Units that are read as characters are the units of these characters. -/
theorem eq_flatMap_of_decodeChars {units : List UInt16} {cs : List Char}
    (h : decodeChars units = some cs) : units = cs.flatMap encodeChar := by
  fun_induction decodeChars units generalizing cs with
  | case1 =>
    cases h
    rfl
  | case2 u high low rest closes ih =>
    obtain ⟨later, read, rfl⟩ := Option.map_eq_some_iff.mp h
    rw [List.flatMap_cons, encodeChar_pairedChar high closes, ← ih read]
    rfl
  | case3 => exact nomatch h
  | case4 => exact nomatch h
  | case5 => exact nomatch h
  | case6 u rest high low ih =>
    obtain ⟨later, read, rfl⟩ := Option.map_eq_some_iff.mp h
    rw [List.flatMap_cons, encodeChar_ofNat high low, ← ih read]
    rfl

/-- Units are decoded to a text if and only if they are the units of that text. -/
theorem decode_eq_some_iff {units : List UInt16} {s : String} :
    decode units = some s ↔ units = encode s := by
  constructor
  · intro h
    obtain ⟨cs, read, rfl⟩ := Option.map_eq_some_iff.mp h
    rw [encode, String.toList_ofList]
    exact eq_flatMap_of_decodeChars read
  · rintro rfl
    rw [decode, encode, decodeChars_flatMap]
    exact congrArg some (String.ofList_toList ..)

end PlotEmbedding.Text
