import PlotEmbedding.Text.Numeral
import Mathlib.Data.List.Forall2
import Mathlib.Data.Nat.Digits.Defs
import Mathlib.Tactic.IntervalCases

/-!
# What numerals say

The value of a numeral is that of its digits in the radix, with the sign in front, and a numeral is
read if it consists of digits and its value lies in the range. `Numeral.readDigits_eq_iff` says what
becomes of any text at all: the digits at its front count up to the first character that is none of
them, unless they leave the range before. As the value only ever grows in size from digit to digit,
they leave it at some digit if and only if they have left it at the last one.
-/

namespace PlotEmbedding.Text

/-! ## Digits -/

/-- The character is a digit of the radix with this value. Letters count in either case. -/
def IsDigit (radix : Nat) (c : Char) (d : Nat) : Prop :=
  d < radix ∧ (c = Nat.digitChar d ∨ c = (Nat.digitChar d).toUpper)

/-- The characters are digits of the radix with these values. -/
def Spells (radix : Nat) (cs : List Char) (ds : List Nat) : Prop :=
  List.Forall₂ (IsDigit radix) cs ds

/-- The value of a digit tells its code point, up to the case of a letter. -/
theorem digitValue_iff {c : Char} {d : Nat} (small : d < 16) :
    digitValue c = some d ↔
      if d < 10 then c.toNat = 48 + d else c.toNat = 87 + d ∨ c.toNat = 55 + d := by
  have order : ∀ a b : Char, a ≤ b ↔ a.toNat ≤ b.toNat := fun _ _ => Iff.rfl
  have codes : '0'.toNat = 48 ∧ '9'.toNat = 57 ∧ 'a'.toNat = 97 ∧ 'z'.toNat = 122 ∧
      'A'.toNat = 65 ∧ 'Z'.toNat = 90 := ⟨rfl, rfl, rfl, rfl, rfl, rfl⟩
  unfold digitValue
  simp only [order, codes]
  split_ifs <;> simp only [Option.some.injEq, false_iff] <;> omega

/-- In a radix up to sixteen a character is taken for the digit that it is. -/
theorem digitOf_iff {radix : Nat} (small : radix ≤ 16) {c : Char} {d : Nat} :
    digitOf radix c = some d ↔ IsDigit radix c d := by
  rw [digitOf, Option.filter_eq_some_iff, and_comm, decide_eq_true_eq]
  refine and_congr_right fun below => ?_
  have small : d < 16 := by omega
  have lower : (Nat.digitChar d).toNat = if d < 10 then 48 + d else 87 + d := by
    interval_cases d <;> rfl
  have upper : (Nat.digitChar d).toUpper.toNat = if d < 10 then 48 + d else 55 + d := by
    interval_cases d <;> rfl
  rw [digitValue_iff small, ← Char.toNat_inj, ← Char.toNat_inj, lower, upper]
  split <;> omega

/-- Every text is digits at first, up to its end or to a character that is no digit. -/
theorem exists_spells (radix : Nat) (cs : List Char) :
    ∃ front back ds, cs = front ++ back ∧ Spells radix front ds ∧
      (back = [] ∨ ∃ c rest, back = c :: rest ∧ ∀ d, ¬ IsDigit radix c d) := by
  induction cs with
  | nil => exact ⟨[], [], [], rfl, .nil, .inl rfl⟩
  | cons c cs ih =>
    by_cases digit : ∃ d, IsDigit radix c d
    · obtain ⟨d, digit⟩ := digit
      obtain ⟨front, back, ds, rfl, spells, ends⟩ := ih
      exact ⟨c :: front, back, d :: ds, rfl, .cons digit spells, ends⟩
    · exact ⟨[], c :: cs, [], rfl, .nil, .inr ⟨c, cs, rfl, not_exists.mp digit⟩⟩

/-! ## Values -/

/-- The integer lies in the range. -/
def Range.Contains (range : Range) (value : Int) : Prop :=
  range.least ≤ value ∧ value ≤ range.greatest

/-- The number once these digits have been appended to one. -/
def accumulate (radix : Nat) : Nat → List Nat → Nat :=
  List.foldl fun acc d => acc * radix + d

/-- From nothing on, this is the value of the digits. -/
theorem accumulate_zero (radix : Nat) (ds : List Nat) :
    accumulate radix 0 ds = Nat.ofDigits radix ds.reverse := by
  rw [Nat.ofDigits_eq_foldr, List.foldr_reverse, accumulate]
  refine congrArg (List.foldl · 0 ds) (funext fun acc => funext fun d => ?_)
  rw [Nat.cast_id, Nat.mul_comm, Nat.add_comm]

/-- Digits never make a number smaller. -/
theorem le_accumulate {radix : Nat} (positive : 0 < radix) (n : Nat) (ds : List Nat) :
    n ≤ accumulate radix n ds := by
  induction ds generalizing n with
  | nil => exact le_rfl
  | cons d ds ih =>
    calc n ≤ n * radix := Nat.le_mul_of_pos_right n positive
      _ ≤ n * radix + d := Nat.le_add_right _ _
      _ ≤ accumulate radix (n * radix + d) ds := ih _

/-- The value of some of the digits at the front is no greater than the value of all. -/
theorem ofDigits_reverse_le {radix : Nat} (positive : 0 < radix) {part ds : List Nat}
    (h : part <+: ds) : Nat.ofDigits radix part.reverse ≤ Nat.ofDigits radix ds.reverse := by
  obtain ⟨more, rfl⟩ := h
  rw [← accumulate_zero, ← accumulate_zero, accumulate, List.foldl_append]
  exact le_accumulate positive _ more

namespace Numeral

/-- The number with the sign in front. -/
def Sign.apply : Sign → Nat → Int
  | plus, n => n
  | minus, n => -n

/-- The value of digits with the sign in front. -/
def value (radix : Nat) (sign : Sign) (ds : List Nat) : Int :=
  sign.apply (Nat.ofDigits radix ds.reverse)

theorem value_eq (radix : Nat) (sign : Sign) (ds : List Nat) :
    value radix sign ds = sign.apply (accumulate radix 0 ds) := by
  rw [accumulate_zero, value]

/-- What is said of a numeral that leaves the range. -/
def Sign.overflow : Sign → NumeralError
  | plus => .tooLarge
  | minus => .tooSmall

theorem Sign.overflow_inj {a b : Sign} : a.overflow = b.overflow ↔ a = b := by
  cases a <;> cases b <;> simp [overflow]

/-- A digit is appended to the number without regard to the sign. -/
theorem append_apply (radix : Nat) (sign : Sign) (n d : Nat) :
    append radix sign (sign.apply n) d = sign.apply (n * radix + d) := by
  cases sign with
  | plus => simp [append, Sign.apply]
  | minus =>
    simp only [append, Sign.apply]
    push_cast
    ring

/-! ## Reading digits -/

section Digits

variable {range : Range} {radix : Nat} {sign : Sign}

/-- Numerals of the radix can be read in the range: the range has zero in it, and the radix has a
digit for each value below it. -/
structure Suited (range : Range) (radix : Nat) : Prop where
  zero : range.Contains 0
  positive : 0 < radix
  small : radix ≤ 16

/-- A range with zero in it contains, with a number, all that are smaller in size. -/
theorem contains_of_le (zero : range.Contains 0) {m n : Nat} (le : m ≤ n)
    (h : range.Contains (sign.apply n)) : range.Contains (sign.apply m) := by
  obtain ⟨low, high⟩ := zero
  obtain ⟨above, below⟩ := h
  cases sign with
  | plus =>
    simp only [Sign.apply] at above below ⊢
    constructor <;> omega
  | minus =>
    simp only [Sign.apply] at above below ⊢
    constructor <;> omega

/-- One digit: the number is taken as long as it lies in the range. -/
theorem readDigits_cons (suited : Suited range radix) {c : Char} {d : Nat}
    (digit : IsDigit radix c d) (cs : List Char) (n : Nat) :
    (range.Contains (sign.apply (n * radix + d)) →
      readDigits range radix sign (c :: cs) (sign.apply n) =
        readDigits range radix sign cs (sign.apply (n * radix + d))) ∧
    (¬ range.Contains (sign.apply (n * radix + d)) →
      readDigits range radix sign (c :: cs) (sign.apply n) = .error sign.overflow) := by
  obtain ⟨low, high⟩ := suited.zero
  rw [readDigits, (digitOf_iff suited.small).mpr digit]
  simp only [append_apply]
  constructor
  · rintro ⟨above, below⟩
    rw [if_neg (not_lt.mpr below), if_neg (not_lt.mpr above)]
  · intro outside
    -- The number has left the range on the side of its sign, since zero lies in it.
    cases sign with
    | plus =>
      have above : range.greatest < Sign.plus.apply (n * radix + d) := by
        by_contra below
        exact outside ⟨by simp only [Sign.apply]; omega, not_lt.mp below⟩
      rw [if_pos above]
      rfl
    | minus =>
      have upper : ¬ range.greatest < Sign.minus.apply (n * radix + d) := by
        simp only [Sign.apply]
        omega
      have below : Sign.minus.apply (n * radix + d) < range.least := by
        by_contra above
        exact outside ⟨not_lt.mp above, not_lt.mp upper⟩
      rw [if_neg upper, if_pos below]
      rfl

/-- Digits whose value lies in the range are read. -/
theorem readDigits_append (suited : Suited range radix) {front : List Char} {ds : List Nat}
    (spells : Spells radix front ds) (back : List Char) {n : Nat}
    (inside : range.Contains (sign.apply (accumulate radix n ds))) :
    readDigits range radix sign (front ++ back) (sign.apply n) =
      readDigits range radix sign back (sign.apply (accumulate radix n ds)) := by
  induction spells generalizing n with
  | nil => rfl
  | @cons c d front ds digit _ ih =>
    have next : range.Contains (sign.apply (n * radix + d)) :=
      contains_of_le suited.zero (le_accumulate suited.positive _ ds) inside
    rw [List.cons_append, (readDigits_cons suited digit _ n).1 next]
    exact ih inside

/-- Digits whose value leaves the range are blamed for that, whatever follows. -/
theorem readDigits_overflow (suited : Suited range radix) {front : List Char} {ds : List Nat}
    (spells : Spells radix front ds) (back : List Char) {n : Nat}
    (start : range.Contains (sign.apply n))
    (outside : ¬ range.Contains (sign.apply (accumulate radix n ds))) :
    readDigits range radix sign (front ++ back) (sign.apply n) = .error sign.overflow := by
  induction spells generalizing n with
  | nil => exact absurd start outside
  | @cons c d front ds digit _ ih =>
    rw [List.cons_append]
    by_cases next : range.Contains (sign.apply (n * radix + d))
    · rw [(readDigits_cons suited digit _ n).1 next]
      exact ih next outside
    · exact (readDigits_cons suited digit _ n).2 next

/-- A character that is no digit is blamed for that. -/
theorem readDigits_stranger (suited : Suited range radix) {c : Char}
    (stranger : ∀ d, ¬ IsDigit radix c d) (cs : List Char) (value : Int) :
    readDigits range radix sign (c :: cs) value = .error .invalidDigit := by
  have none : digitOf radix c = none := by
    refine Option.eq_none_iff_forall_ne_some.mpr fun d digit => ?_
    exact stranger d ((digitOf_iff suited.small).mp digit)
  rw [readDigits, none]

/-- What becomes of the characters behind the sign. -/
inductive Decides (range : Range) (radix : Nat) (sign : Sign) (cs : List Char) :
    Except NumeralError Int → Prop where
  /-- They are the digits of a value in the range. -/
  | value {ds : List Nat} : Spells radix cs ds →
      range.Contains (value radix sign ds) →
      Decides range radix sign cs (.ok (value radix sign ds))
  /-- Behind digits that stay in the range there is a character that is none. -/
  | stranger {front back : List Char} {c : Char} {ds : List Nat} : cs = front ++ c :: back →
      Spells radix front ds → (∀ d, ¬ IsDigit radix c d) →
      range.Contains (value radix sign ds) →
      Decides range radix sign cs (.error .invalidDigit)
  /-- The digits at the front leave the range. -/
  | overflow {front back : List Char} {ds : List Nat} : cs = front ++ back →
      Spells radix front ds → ¬ range.Contains (value radix sign ds) →
      Decides range radix sign cs (.error sign.overflow)

/-- What becomes of the characters behind the sign is decided by the digits at their front. -/
theorem readDigits_eq_iff (suited : Suited range radix) {cs : List Char}
    {outcome : Except NumeralError Int} :
    readDigits range radix sign cs 0 = outcome ↔ Decides range radix sign cs outcome := by
  have nothing : sign.apply 0 = 0 := by cases sign <;> rfl
  have taken : ∀ {front : List Char} {ds : List Nat} (back : List Char), Spells radix front ds →
      range.Contains (value radix sign ds) →
      readDigits range radix sign (front ++ back) 0 =
        readDigits range radix sign back (value radix sign ds) := by
    intro front ds back spells inside
    rw [value_eq] at inside ⊢
    rw [← nothing]
    exact readDigits_append suited spells back inside
  have left : ∀ {front : List Char} {ds : List Nat} (back : List Char), Spells radix front ds →
      ¬ range.Contains (value radix sign ds) →
      readDigits range radix sign (front ++ back) 0 = .error sign.overflow := by
    intro front ds back spells outside
    rw [value_eq] at outside
    rw [← nothing]
    exact readDigits_overflow suited spells back (nothing ▸ suited.zero) outside
  constructor
  · rintro rfl
    -- As many digits as there are at the front decide, whatever comes behind them.
    obtain ⟨front, back, ds, rfl, spells, ends⟩ := exists_spells radix cs
    by_cases inside : range.Contains (value radix sign ds)
    · rw [taken back spells inside]
      rcases ends with rfl | ⟨c, rest, rfl, stranger⟩
      · exact .value (by rwa [List.append_nil]) inside
      · rw [readDigits_stranger suited stranger]
        exact .stranger rfl spells stranger inside
    · rw [left back spells inside]
      exact .overflow rfl spells inside
  · rintro (⟨spells, inside⟩ | ⟨rfl, spells, stranger, inside⟩ | ⟨rfl, spells, outside⟩)
    · rw [← List.append_nil cs, taken [] spells inside]
      rfl
    · rw [taken _ spells inside, readDigits_stranger suited stranger]
    · exact left _ spells outside

end Digits

/-! ## Reading numerals -/

/-- The text is the characters with an optional sign in front. -/
inductive Signed : List Char → Sign → List Char → Prop where
  | plus (cs : List Char) : Signed ('+' :: cs) .plus cs
  | minus (cs : List Char) : Signed ('-' :: cs) .minus cs
  /-- There is no sign. -/
  | bare {cs : List Char} : (∀ c rest, cs = c :: rest → c ≠ '+' ∧ c ≠ '-') → Signed cs .plus cs

theorem exists_signed (numeral : List Char) : ∃ sign cs, Signed numeral sign cs := by
  cases numeral with
  | nil => exact ⟨.plus, [], .bare nofun⟩
  | cons c rest =>
    by_cases plus : c = '+'
    · exact ⟨.plus, rest, plus ▸ .plus rest⟩
    · by_cases minus : c = '-'
      · exact ⟨.minus, rest, minus ▸ .minus rest⟩
      · refine ⟨.plus, c :: rest, .bare ?_⟩
        rintro _ _ ⟨⟩
        exact ⟨plus, minus⟩

/-- There is one way to tell the sign. -/
theorem Signed.unique {numeral cs cs' : List Char} {sign sign' : Sign}
    (h : Signed numeral sign cs) (h' : Signed numeral sign' cs') : sign' = sign ∧ cs' = cs := by
  cases h with
  | plus =>
    cases h' with
    | plus => exact ⟨rfl, rfl⟩
    | bare other => exact absurd rfl (other _ _ rfl).1
  | minus =>
    cases h' with
    | minus => exact ⟨rfl, rfl⟩
    | bare other => exact absurd rfl (other _ _ rfl).2
  | bare other =>
    cases h' with
    | plus => exact absurd rfl (other _ _ rfl).1
    | minus => exact absurd rfl (other _ _ rfl).2
    | bare _ => exact ⟨rfl, rfl⟩

section Numerals

variable {range : Range} {radix : Nat} {sign : Sign} {numeral cs : List Char}

/-- The sign is taken off before the digits are read. -/
theorem read_of_signed (signed : Signed numeral sign cs) (given : numeral ≠ []) :
    read range radix numeral = readUnsigned range radix sign cs := by
  cases signed with
  | plus => rfl
  | minus => rfl
  | bare other =>
    cases numeral with
    | nil => exact absurd rfl given
    | cons c rest =>
      obtain ⟨noPlus, noMinus⟩ := other c rest rfl
      unfold read
      split
      · next empty => cases empty
      · next plus => exact absurd (List.cons.inj plus).1 noPlus
      · next minus => exact absurd (List.cons.inj minus).1 noMinus
      · next same => rw [same]

/-- A text without a character is empty, a lone sign is invalid, and what stands behind the sign
decides on all others. -/
theorem read_eq_iff (suited : Suited range radix) (signed : Signed numeral sign cs)
    {outcome : Except NumeralError Int} :
    read range radix numeral = outcome ↔
      numeral = [] ∧ outcome = .error .empty ∨
      numeral ≠ [] ∧ cs = [] ∧ outcome = .error .invalidDigit ∨
      cs ≠ [] ∧ Decides range radix sign cs outcome := by
  by_cases given : numeral = []
  · subst given
    cases signed
    simp [read, eq_comm]
  · rw [read_of_signed signed given]
    cases cs with
    | nil => simp [readUnsigned, given, eq_comm]
    | cons c rest =>
      rw [readUnsigned, readDigits_eq_iff suited]
      simp [given]

/-- A numeral is read if it is a value in the range, written with one digit at least. -/
theorem read_eq_ok_iff (suited : Suited range radix) (signed : Signed numeral sign cs) {v : Int} :
    read range radix numeral = .ok v ↔
      ∃ ds, ds ≠ [] ∧ Spells radix cs ds ∧
        range.Contains (value radix sign ds) ∧ v = value radix sign ds := by
  rw [read_eq_iff suited signed]
  constructor
  · rintro (⟨-, ⟨⟩⟩ | ⟨-, -, ⟨⟩⟩ | ⟨given, ⟨spells, inside⟩⟩)
    refine ⟨_, ?_, spells, inside, rfl⟩
    rintro rfl
    exact given (List.forall₂_nil_right_iff.mp spells)
  · rintro ⟨ds, given, spells, inside, rfl⟩
    refine .inr (.inr ⟨?_, .value spells inside⟩)
    rintro rfl
    exact given (List.forall₂_nil_left_iff.mp spells)

/-- What is read lies in the range. -/
theorem contains_of_read (suited : Suited range radix) {v : Int}
    (h : read range radix numeral = .ok v) : range.Contains v := by
  obtain ⟨sign, cs, signed⟩ := exists_signed numeral
  obtain ⟨ds, -, -, inside, rfl⟩ := (read_eq_ok_iff suited signed).mp h
  exact inside

/-- Nothing else than the empty text is called empty. -/
theorem read_eq_empty_iff (suited : Suited range radix) (signed : Signed numeral sign cs) :
    read range radix numeral = .error .empty ↔ numeral = [] := by
  rw [read_eq_iff suited signed]
  constructor
  · rintro (⟨empty, -⟩ | ⟨-, -, ⟨⟩⟩ | ⟨-, decides⟩)
    · exact empty
    · cases sign <;> cases decides
  · exact fun empty => .inl ⟨empty, rfl⟩

/-- A lone sign is invalid, and so is a character that is no digit unless the digits in front of it
have left the range. -/
theorem read_eq_invalidDigit_iff (suited : Suited range radix) (signed : Signed numeral sign cs) :
    read range radix numeral = .error .invalidDigit ↔
      (numeral ≠ [] ∧ cs = []) ∨
      ∃ front c back ds, cs = front ++ c :: back ∧ Spells radix front ds ∧
        (∀ d, ¬ IsDigit radix c d) ∧
        ∀ part, part <+: ds → range.Contains (value radix sign part) := by
  rw [read_eq_iff suited signed]
  constructor
  · rintro (⟨-, ⟨⟩⟩ | ⟨given, lone, -⟩ | ⟨-, decides⟩)
    · exact .inl ⟨given, lone⟩
    · cases sign <;> cases decides with
      | stranger cut spells stranger inside =>
        exact .inr ⟨_, _, _, _, cut, spells, stranger, fun part front =>
          contains_of_le suited.zero (ofDigits_reverse_le suited.positive front) inside⟩
  · rintro (⟨given, lone⟩ | ⟨front, c, back, ds, rfl, spells, stranger, inside⟩)
    · exact .inr (.inl ⟨given, lone, rfl⟩)
    · exact .inr (.inr ⟨by simp, .stranger rfl spells stranger (inside ds List.prefix_rfl)⟩)

/-- Digits at the front that leave the range are blamed for that, by the side on which they do. -/
theorem read_eq_overflow_iff (suited : Suited range radix) (signed : Signed numeral sign cs)
    (blamed : Sign) :
    read range radix numeral = .error blamed.overflow ↔
      sign = blamed ∧ ∃ front back ds, cs = front ++ back ∧ Spells radix front ds ∧
        ¬ range.Contains (value radix sign ds) := by
  rw [read_eq_iff suited signed]
  constructor
  · rintro (⟨-, same⟩ | ⟨-, -, same⟩ | ⟨-, decides⟩)
    · cases blamed <;> cases same
    · cases blamed <;> cases same
    · generalize left : Except.error blamed.overflow = outcome at decides
      cases decides with
      | value _ _ => cases left
      | stranger _ _ _ _ => cases blamed <;> cases left
      | overflow cut spells outside =>
        exact ⟨(Sign.overflow_inj.mp (Except.error.inj left)).symm, _, _, _, cut, spells, outside⟩
  · rintro ⟨rfl, front, back, ds, rfl, spells, outside⟩
    refine .inr (.inr ⟨fun nothing => outside ?_, .overflow rfl spells outside⟩)
    -- Without a character there is no digit, and the value is zero.
    obtain rfl := (List.append_eq_nil_iff.mp nothing).1
    obtain rfl := List.forall₂_nil_left_iff.mp spells
    exact contains_of_le suited.zero (Nat.zero_le 0) (by cases sign <;> exact suited.zero)

end Numerals

end Numeral

end PlotEmbedding.Text
