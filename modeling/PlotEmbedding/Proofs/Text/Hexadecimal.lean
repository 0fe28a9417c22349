import PlotEmbedding.Text.Hexadecimal
import PlotEmbedding.Proofs.Text.Numeral

/-!
# Written numbers

The digits that a number is written with spell this number, in every radix that has a digit for each
value, and zeros in front of them change nothing. As digits spell one number only, two numbers with
the same text are the same one, whatever the width that their texts were padded to.
-/

namespace PlotEmbedding.Text

/-! ## Digits spell one number -/

/-- A character is a digit of one value at most. -/
theorem isDigit_unique {radix : Nat} (small : radix ≤ 16) :
    Relator.RightUnique (IsDigit radix) := by
  intro c d d' digit digit'
  rw [← digitOf_iff small] at digit digit'
  exact Option.some.inj (digit.symm.trans digit')

/-- Characters spell one list of digits at most. -/
theorem spells_unique {radix : Nat} (small : radix ≤ 16) : Relator.RightUnique (Spells radix) :=
  (isDigit_unique small).forall₂

/-- Each of the characters that spell digits is one. -/
theorem Spells.isDigit_of_mem {radix : Nat} {cs : List Char} {ds : List Nat} {c : Char}
    (spells : Spells radix cs ds) (among : c ∈ cs) : ∃ d, IsDigit radix c d := by
  induction spells with
  | nil => exact absurd among List.not_mem_nil
  | @cons c' d cs ds digit _ ih =>
    rcases List.mem_cons.mp among with rfl | among
    · exact ⟨d, digit⟩
    · exact ih among

/-! ## Numbers as they are written -/

/-- The digits that a number is written with spell it. -/
theorem exists_spells_toDigits {radix : Nat} (large : 1 < radix) (n : Nat) :
    ∃ ds, ds ≠ [] ∧ Spells radix (Nat.toDigits radix n) ds ∧ accumulate radix 0 ds = n := by
  induction n using Nat.base_induction radix large with
  | single m hm =>
    rw [Nat.toDigits_of_lt_base hm]
    refine ⟨[m], List.cons_ne_nil _ _, .cons ⟨hm, .inl rfl⟩ .nil, ?_⟩
    simp [accumulate]
  | digit m k hk hm ih =>
    obtain ⟨ds, -, spells, value⟩ := ih
    rw [← Nat.toDigits_append_toDigits large hm hk, Nat.toDigits_of_lt_base hk]
    refine ⟨ds ++ [k], by simp, List.rel_append spells (.cons ⟨hk, .inl rfl⟩ .nil), ?_⟩
    show List.foldl _ 0 (ds ++ [k]) = _
    rw [List.foldl_append]
    show accumulate radix 0 ds * radix + k = radix * m + k
    rw [value, Nat.mul_comm]

/-- Zeros in front of a number change nothing. -/
theorem accumulate_replicate_zero (radix k : Nat) (ds : List Nat) :
    accumulate radix 0 (List.replicate k 0 ++ ds) = accumulate radix 0 ds := by
  induction k with
  | zero => rfl
  | succ k ih =>
    rw [List.replicate_succ, List.cons_append, ← ih]
    simp [accumulate]

/-- Padding puts digits of value zero in front. -/
theorem spells_padZeros {radix : Nat} (positive : 0 < radix) (width : Nat) {cs : List Char}
    {ds : List Nat} (spells : Spells radix cs ds) :
    Spells radix (padZeros width cs) (List.replicate (width - cs.length) 0 ++ ds) := by
  refine List.rel_append ?_ spells
  induction width - cs.length with
  | zero => exact .nil
  | succ k ih => exact .cons ⟨positive, .inl rfl⟩ ih

/-- A hexadecimal text is the mark and digits that spell the number. -/
theorem exists_spells_hexText (width n : Nat) :
    ∃ cs ds, (hexText width n).toList = '0' :: 'x' :: cs ∧ ds ≠ [] ∧ Spells 16 cs ds ∧
      accumulate 16 0 ds = n := by
  obtain ⟨ds, given, spells, value⟩ := exists_spells_toDigits (by omega : 1 < 16) n
  refine ⟨_, _, String.toList_ofList, ?_, spells_padZeros (by omega) width spells, ?_⟩
  · simp [given]
  · rw [accumulate_replicate_zero, value]

/-- Numbers whose hexadecimal texts are the same are the same. -/
theorem hexText_inj {width width' m n : Nat} (h : hexText width m = hexText width' n) : m = n := by
  obtain ⟨cs, ds, text, -, spells, value⟩ := exists_spells_hexText width m
  obtain ⟨cs', ds', text', -, spells', value'⟩ := exists_spells_hexText width' n
  have same : cs = cs' := by
    rw [h, text'] at text
    simpa using text.symm
  subst same
  rw [← value, ← value', spells_unique (by omega) spells spells']

end PlotEmbedding.Text
