import PlotEmbedding.Proofs.HandleReading
import PlotEmbedding.Proofs.Text.Hexadecimal

/-!
# The texts of handles, read back

A handle is written by its bits and read by its value. These are the same number as long as the
handle is not negative, and `Handle.reads_own_text` says that then its text is read back, with blank
characters around it or without. The bits of a negative handle are a number beyond the range, so its
text is never read back as any handle.
-/

namespace PlotEmbedding

open Text Text.Numeral

/-- No digit is blank. -/
theorem Text.IsDigit.not_blank {radix : Nat} (small : radix ≤ 16) {c : Char} {d : Nat}
    (digit : IsDigit radix c d) : isBlank c = false := by
  obtain ⟨below, same⟩ := digit
  have below : d < 16 := by omega
  rcases same with rfl | rfl
  · interval_cases d <;> rfl
  · interval_cases d <;> rfl

/-- No digit is a sign. -/
theorem Text.IsDigit.not_sign {radix : Nat} (small : radix ≤ 16) {c : Char} {d : Nat}
    (digit : IsDigit radix c d) : c ≠ '+' ∧ c ≠ '-' := by
  constructor
  · rintro rfl
    exact nomatch (digitOf_iff small).mpr digit
  · rintro rfl
    exact nomatch (digitOf_iff small).mpr digit

/-- The bits of an integer as a number are its value, or exceed it by all that they can say. -/
theorem toNat_toUInt64 (v : Int64) :
    (v.toUInt64.toNat : Int) = if v.toInt < 0 then v.toInt + 2 ^ 64 else v.toInt := by
  have below : v.toUInt64.toNat < 2 ^ 64 := v.toUInt64.toNat_lt
  have bits : v.toInt = if 2 * v.toUInt64.toNat < 2 ^ 64 then (v.toUInt64.toNat : Int)
      else v.toUInt64.toNat - (2 ^ 64 : Nat) := v.toBitVec.toInt_eq_toNat_cond
  split at bits <;> split <;> omega

namespace Handle

/-- Behind the mark, the text of a handle is the digits of its bits, and blank characters around it
make no difference. -/
theorem exists_marks_text (h : Handle) {before after : String}
    (blank : ∀ c ∈ before.toList ++ after.toList, isBlank c = true) :
    ∃ cs ds, Marks (trim (before ++ h.text ++ after).toList) 16 cs ∧ Signed cs .plus cs ∧ ds ≠ [] ∧
      Spells 16 cs ds ∧ Numeral.value 16 .plus ds = h.value.toUInt64.toNat := by
  obtain ⟨cs, ds, text, given, spells, value⟩ := exists_spells_hexText 8 h.value.toUInt64.toNat
  -- Nothing in the text is blank, and so all that is trimmed is what was put around it.
  have graphic : ∀ c ∈ '0' :: 'x' :: cs, isBlank c = false := by
    intro c among
    rcases List.mem_cons.mp among with rfl | among
    · rfl
    rcases List.mem_cons.mp among with rfl | among
    · rfl
    obtain ⟨d, digit⟩ := spells.isDigit_of_mem among
    exact digit.not_blank (by omega)
  have trimmed : trim (before ++ h.text ++ after).toList = '0' :: 'x' :: cs := by
    rw [String.toList_append, String.toList_append, Handle.text, text]
    refine (trims_iff.mp (trims_of_graphic ?_ ?_ graphic)).symm
    · exact fun c among => blank c (List.mem_append_left _ among)
    · exact fun c among => blank c (List.mem_append_right _ among)
  refine ⟨cs, ds, trimmed ▸ .hex cs (.inl rfl), .bare ?_, given, spells, ?_⟩
  · -- The first digit is not taken for a sign.
    rintro c rest rfl
    obtain ⟨d, digit⟩ := spells.isDigit_of_mem List.mem_cons_self
    exact digit.not_sign (by omega)
  · rw [value_eq, value]
    rfl

/-- The text of a handle, between blank characters or none, is read back as this handle unless the
handle is negative: then its bits are too large a number to read. -/
theorem reads_own_text (h : Handle) (before after : String)
    (blank : ∀ c ∈ before.toList ++ after.toList, isBlank c = true) :
    read (before ++ h.text ++ after) = if h.value < 0 then .error .tooLarge else .ok h := by
  obtain ⟨cs, ds, marks, signed, given, spells, value⟩ := h.exists_marks_text blank
  have bits := toNat_toUInt64 h.value
  have low : -2 ^ 63 ≤ h.value.toInt := h.value.le_toInt
  have high : h.value.toInt < 2 ^ 63 := h.value.toInt_lt
  split
  · next negative =>
    rw [Int64.lt_iff_toInt_lt, Int64.toInt_zero] at negative
    rw [if_pos negative] at bits
    rw [read_eq_error_iff marks]
    -- The digits are all read, but the value that they have stands for the bits without a sign.
    refine (Numeral.read_eq_overflow_iff marks.suited signed .plus).mpr
      ⟨rfl, cs, [], ds, (List.append_nil cs).symm, spells, ?_⟩
    rw [range_contains_iff, value, Fits]
    omega
  · next negative =>
    rw [Int64.lt_iff_toInt_lt, Int64.toInt_zero] at negative
    rw [if_neg negative] at bits
    rw [read_eq_ok_iff marks, Numeral.read_eq_ok_iff marks.suited signed]
    refine ⟨ds, given, spells, ?_, ?_⟩
    · rw [range_contains_iff, value, Fits]
      omega
    · rw [value, bits]

/-- The greatest handle is read back between blank characters, the least one is not. -/
theorem reads_own_text_of_ends :
    (∀ c ∈ "\u3000\t".toList ++ "\n".toList, isBlank c = true) ∧
    read ("\u3000\t" ++ text ⟨Int64.maxValue⟩ ++ "\n") = .ok ⟨Int64.maxValue⟩ ∧
    read ("\u3000\t" ++ text ⟨Int64.minValue⟩ ++ "\n") = .error .tooLarge := by
  have blank : ∀ c ∈ "\u3000\t".toList ++ "\n".toList, isBlank c = true :=
    List.all_eq_true.mp (by decide)
  exact ⟨blank, reads_own_text ⟨Int64.maxValue⟩ _ _ blank,
    reads_own_text ⟨Int64.minValue⟩ _ _ blank⟩

/-- Not every handle is read back from its text: the handle of all bits is not. -/
theorem lost_handle_of_all_bits :
    text ⟨-1⟩ = "0xffffffffffffffff" ∧ read "0xffffffffffffffff" = .error .tooLarge ∧
    ¬ ∀ h : Handle, read h.text = .ok h := by
  have written : text ⟨-1⟩ = "0xffffffffffffffff" := by decide
  have lost : read "0xffffffffffffffff" = .error .tooLarge := by rfl
  refine ⟨written, lost, fun reads => ?_⟩
  have kept := reads ⟨-1⟩
  rw [written, lost] at kept
  cases kept

end Handle

end PlotEmbedding
