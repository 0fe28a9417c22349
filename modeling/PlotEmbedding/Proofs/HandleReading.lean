import PlotEmbedding.Handle
import PlotEmbedding.Proofs.Text.Blank
import PlotEmbedding.Proofs.Text.Numeral

/-!
# Reading handles

A handle is read from a text in three steps: the blank characters at the ends go, then the mark of
the radix, then the sign, and what is left has to be digits. Each step has one result, whatever the
text, by `Text.trims_iff`, `Handle.marks_iff` and `Text.Numeral.exists_signed`, and the last one
decides on the handle or on what is blamed. `Handle.reads_numerals` puts the steps together.
-/

namespace PlotEmbedding

open Text Text.Numeral

namespace Handle

/-- The trimmed text is the numeral behind the mark of the radix, or is decimal without a mark. -/
inductive Marks : List Char → Nat → List Char → Prop where
  | hex {x : Char} (numeral : List Char) : x = 'x' ∨ x = 'X' →
      Marks ('0' :: x :: numeral) 16 numeral
  | decimal {t : List Char} : (∀ x rest, t = '0' :: x :: rest → x ≠ 'x' ∧ x ≠ 'X') → Marks t 10 t

/-- The mark is taken off by `splitRadix`. -/
theorem marks_iff {t : List Char} {radix : Nat} {numeral : List Char} :
    Marks t radix numeral ↔ splitRadix t = (radix, numeral) := by
  constructor
  · rintro (⟨_, rfl | rfl⟩ | ⟨unmarked⟩)
    · rfl
    · rfl
    · unfold splitRadix
      split
      · exact absurd rfl (unmarked _ _ rfl).1
      · exact absurd rfl (unmarked _ _ rfl).2
      · rfl
  · intro split
    unfold splitRadix at split
    split at split
    · cases split
      exact .hex _ (.inl rfl)
    · cases split
      exact .hex _ (.inr rfl)
    · next lower upper =>
      cases split
      refine .decimal fun x rest same => ⟨?_, ?_⟩
      · -- The two patterns that come first did not match, and so neither mark is there.
        rintro rfl
        exact lower rest same
      · rintro rfl
        exact upper rest same

/-- The integer is one of signed sixty-four bits. -/
def Fits (value : Int) : Prop := -2 ^ 63 ≤ value ∧ value ≤ 2 ^ 63 - 1

theorem range_contains_iff {value : Int} : range.Contains value ↔ Fits value := Iff.rfl

/-- Handles are read in a radix with digits, in a range with zero in it. -/
theorem Marks.suited {t numeral : List Char} {radix : Nat} (h : Marks t radix numeral) :
    Suited range radix := by
  have zero : range.Contains 0 := by
    rw [range_contains_iff, Fits]
    omega
  cases h with
  | hex _ _ => exact ⟨zero, by decide, by decide⟩
  | decimal _ => exact ⟨zero, by decide, by decide⟩

section Read

variable {s : String} {numeral : List Char} {radix : Nat}

/-- The numeral behind the mark of the radix is read. -/
theorem read_of_marks (marks : Marks (trim s.toList) radix numeral) :
    Handle.read s = (Numeral.read range radix numeral).map fun value => ⟨Int64.ofInt value⟩ := by
  rw [Handle.read, marks_iff.mp marks]

/-- A handle is read if the numeral is, and has its value. -/
theorem read_eq_ok_iff (marks : Marks (trim s.toList) radix numeral) {h : Handle} :
    Handle.read s = .ok h ↔ Numeral.read range radix numeral = .ok h.value.toInt := by
  rw [read_of_marks marks]
  cases outcome : Numeral.read range radix numeral with
  | error blamed => exact ⟨nofun, nofun⟩
  | ok value =>
    obtain ⟨low, high⟩ : Fits value := Numeral.contains_of_read marks.suited outcome
    constructor
    · rintro ⟨⟩
      exact congrArg Except.ok (Int64.toInt_ofInt_of_le low (by omega)).symm
    · rintro ⟨⟩
      exact congrArg (Except.ok ∘ Handle.mk) (Int64.ofInt_toInt h.value)

/-- What is blamed in the numeral is blamed in the text. -/
theorem read_eq_error_iff (marks : Marks (trim s.toList) radix numeral) {e : NumeralError} :
    Handle.read s = .error e ↔ Numeral.read range radix numeral = .error e := by
  rw [read_of_marks marks]
  cases Numeral.read range radix numeral with
  | ok value => exact ⟨nofun, nofun⟩
  | error blamed => simp [Except.map]

end Read

/-- Every text is trimmed, and the mark of the radix and the sign taken off, in one way, and what
is left decides. A handle is read if that is one digit or more whose value with the sign fits, and
has this value. Otherwise the first offender is blamed: a character that is no digit, or a digit
with which the value no longer fits. -/
theorem reads_numerals (s : String) : ∃ t radix numeral sign digits,
    (∀ t', Trims s.toList t' ↔ t' = t) ∧
    (∀ radix' numeral', Marks t radix' numeral' ↔ radix' = radix ∧ numeral' = numeral) ∧
    (∀ sign' digits', Signed numeral sign' digits' ↔ sign' = sign ∧ digits' = digits) ∧
    (∀ h, read s = .ok h ↔ ∃ ds, ds ≠ [] ∧ Spells radix digits ds ∧
      Fits (Numeral.value radix sign ds) ∧ h.value.toInt = Numeral.value radix sign ds) ∧
    (read s = .error .empty ↔ numeral = []) ∧
    (read s = .error .invalidDigit ↔
      (numeral ≠ [] ∧ digits = []) ∨
      ∃ front c back ds, digits = front ++ c :: back ∧ Spells radix front ds ∧
        (∀ d, ¬ IsDigit radix c d) ∧ ∀ part, part <+: ds → Fits (Numeral.value radix sign part)) ∧
    (read s = .error .tooLarge ↔ sign = .plus ∧
      ∃ front back ds, digits = front ++ back ∧ Spells radix front ds ∧
        ¬ Fits (Numeral.value radix sign ds)) ∧
    (read s = .error .tooSmall ↔ sign = .minus ∧
      ∃ front back ds, digits = front ++ back ∧ Spells radix front ds ∧
        ¬ Fits (Numeral.value radix sign ds)) := by
  -- The text is taken apart once, and every clause is about the parts.
  obtain ⟨radix, numeral, marked⟩ : ∃ radix numeral,
      splitRadix (trim s.toList) = (radix, numeral) := ⟨_, _, rfl⟩
  have marks := marks_iff.mpr marked
  obtain ⟨sign, digits, signed⟩ := exists_signed numeral
  refine ⟨trim s.toList, radix, numeral, sign, digits, fun t' => trims_iff, ?_, ?_, ?_, ?_, ?_, ?_,
    ?_⟩
  · intro radix' numeral'
    rw [marks_iff, marked, Prod.mk.injEq, eq_comm, @eq_comm _ numeral]
  · refine fun sign' digits' => ⟨signed.unique, ?_⟩
    rintro ⟨rfl, rfl⟩
    exact signed
  · intro h
    rw [read_eq_ok_iff marks]
    exact Numeral.read_eq_ok_iff marks.suited signed
  · rw [read_eq_error_iff marks]
    exact Numeral.read_eq_empty_iff marks.suited signed
  · rw [read_eq_error_iff marks]
    exact Numeral.read_eq_invalidDigit_iff marks.suited signed
  · rw [read_eq_error_iff marks]
    exact Numeral.read_eq_overflow_iff marks.suited signed .plus
  · rw [read_eq_error_iff marks]
    exact Numeral.read_eq_overflow_iff marks.suited signed .minus

-- The first digit too many comes before the character that is none.
example : read "\u3000+9223372036854775808x " = .error .tooLarge := by rfl

example : read "0X-8000000000000000" = .ok ⟨Int64.minValue⟩ := by rfl

end Handle

end PlotEmbedding
