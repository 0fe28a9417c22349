import Mathlib.Algebra.Ring.Nat
import Mathlib.Tactic.SplitIfs
import PlotEmbedding.Text.ByteOrder
import PlotEmbedding.Proofs.Text.Units

/-!
# The order of texts by their characters

Texts are compared by their UTF-8 bytes, and `compareBytes_eq` says that this is the order of their
characters by code point. The first byte of a character never decreases when the code point grows.
Characters with the same first byte have the same number of further bytes, and these are the rest of
the code point as digits in base 64, so the first of them that differ decides as the code points do.
`bytes_lt_iff` says the same of the two lexicographic orders.
-/

namespace PlotEmbedding.Text

/-- The code points of a text. -/
def codePoints (s : String) : List Nat := s.toList.map Char.toNat

/-! ## The bytes of a character -/

/-- The number of bytes behind the first one. -/
def furtherBytes (n : Nat) : Nat :=
  if n ≤ 0x7f then 0 else if n ≤ 0x7ff then 1 else if n ≤ 0xffff then 2 else 3

/-- The first byte of a code point: a mark of the number of further bytes, and the bits that these
leave over. -/
def firstByte (n : Nat) : Nat :=
  if n ≤ 0x7f then n
  else if n ≤ 0x7ff then n / 64 + 0xc0
  else if n ≤ 0xffff then n / 64 ^ 2 + 0xe0
  else n / 64 ^ 3 + 0xf0

/-- The last digits of a number in base 64, each with the mark of a further byte. -/
def lastDigits (n : Nat) : Nat → List UInt8
  | 0 => []
  | k + 1 => UInt8.ofNat (n / 64 ^ k % 64 + 0x80) :: lastDigits n k

/-- A character is its first byte and the last digits of its code point. -/
theorem utf8EncodeChar_eq (c : Char) :
    String.utf8EncodeChar c =
      UInt8.ofNat (firstByte c.toNat) :: lastDigits c.toNat (furtherBytes c.toNat) := by
  have valid := toNat_valid c
  simp only [String.utf8EncodeChar, firstByte, furtherBytes, Char.toNat_val]
  split
  · rfl
  split
  · have bits : c.toNat / 64 < 32 := by omega
    simp [lastDigits, Nat.mod_eq_of_lt bits]
  split
  · have bits : c.toNat / 4096 < 16 := by omega
    simp [lastDigits, Nat.mod_eq_of_lt bits]
  · have bits : c.toNat / 262144 < 8 := by omega
    simp [lastDigits, Nat.mod_eq_of_lt bits]

/-- The first byte fits into a byte. -/
theorem firstByte_lt {n : Nat} (valid : n < 0x110000) : firstByte n < 256 := by
  unfold firstByte
  split_ifs <;> omega

/-- A greater code point has a greater first byte, or the same one, and then as many further bytes
and the same digits in front of them. -/
theorem firstByte_of_lt {m n : Nat} (lt : m < n) :
    firstByte m < firstByte n ∨ firstByte m = firstByte n ∧ furtherBytes m = furtherBytes n ∧
      m / 64 ^ furtherBytes m = n / 64 ^ furtherBytes m := by
  unfold firstByte furtherBytes
  split_ifs <;> simp <;> omega

/-! ## Comparing bytes -/

/-- What two lists have in common at their front makes no difference. -/
theorem compare_append_left (front back back' : List UInt8) :
    compare (front ++ back) (front ++ back') = compare back back' := by
  induction front with
  | nil => rfl
  | cons byte front ih =>
    rw [List.cons_append, List.cons_append, List.compare_cons_cons, Std.compare_self]
    exact ih

/-- A lesser byte comes first. -/
theorem compare_cons_of_lt {m n : Nat} (lt : m < n) (small : n < 256) (back back' : List UInt8) :
    compare (UInt8.ofNat m :: back) (UInt8.ofNat n :: back') = .lt := by
  have first : compare (UInt8.ofNat m) (UInt8.ofNat n) = .lt := by
    rw [Std.compare_eq_lt, UInt8.lt_iff_toNat_lt, UInt8.toNat_ofNat', UInt8.toNat_ofNat',
      Nat.mod_eq_of_lt (by omega), Nat.mod_eq_of_lt small]
    exact lt
  rw [List.compare_cons_cons, first]
  rfl

/-- Of two numbers that differ in their last digits only, the lesser one comes first. -/
theorem compare_lastDigits {m n k : Nat} (lt : m < n) (same : m / 64 ^ k = n / 64 ^ k)
    (back back' : List UInt8) :
    compare (lastDigits m k ++ back) (lastDigits n k ++ back') = .lt := by
  induction k with
  | zero =>
    rw [Nat.pow_zero, Nat.div_one, Nat.div_one] at same
    omega
  | succ k ih =>
    rw [Nat.pow_succ, ← Nat.div_div_eq_div_mul, ← Nat.div_div_eq_div_mul] at same
    have le : m / 64 ^ k ≤ n / 64 ^ k := Nat.div_le_div_right (by omega)
    by_cases digit : m / 64 ^ k = n / 64 ^ k
    · rw [lastDigits, lastDigits, digit, List.cons_append, List.cons_append,
        List.compare_cons_cons, Std.compare_self]
      exact ih digit
    · exact compare_cons_of_lt (by omega) (by omega) _ _

/-- The character of the lesser code point comes first, whatever follows the two. -/
theorem compare_utf8EncodeChar_of_lt {c d : Char} (lt : c.toNat < d.toNat)
    (back back' : List UInt8) :
    compare (String.utf8EncodeChar c ++ back) (String.utf8EncodeChar d ++ back') = .lt := by
  have valid := toNat_valid d
  rw [utf8EncodeChar_eq, utf8EncodeChar_eq, List.cons_append, List.cons_append]
  rcases firstByte_of_lt lt with first | ⟨first, count, same⟩
  · exact compare_cons_of_lt first (firstByte_lt (by omega)) _ _
  · rw [first, ← count, List.compare_cons_cons, Std.compare_self]
    exact compare_lastDigits lt same back back'

/-! ## Comparing texts -/

/-- The bytes of a text are those of its characters. -/
theorem bytes_eq (s : String) : bytes s = s.toList.flatMap String.utf8EncodeChar := by
  rw [bytes, ← String.utf8Encode_toList]
  exact List.toList_data_toByteArray

/-- Characters are compared by their bytes as by their code points. -/
theorem compare_flatMap (cs ds : List Char) :
    compare (cs.flatMap String.utf8EncodeChar) (ds.flatMap String.utf8EncodeChar) =
      compare (cs.map Char.toNat) (ds.map Char.toNat) := by
  induction cs generalizing ds with
  | nil =>
    cases ds with
    | nil => rfl
    | cons d ds =>
      rw [List.flatMap_cons, utf8EncodeChar_eq]
      rfl
  | cons c cs ih =>
    cases ds with
    | nil =>
      rw [List.flatMap_cons, utf8EncodeChar_eq]
      rfl
    | cons d ds =>
      rw [List.flatMap_cons, List.flatMap_cons, List.map_cons, List.map_cons,
        List.compare_cons_cons]
      -- The first characters that differ decide on both sides, and equal ones are passed over.
      rcases Nat.lt_trichotomy c.toNat d.toNat with lt | eq | gt
      · rw [compare_utf8EncodeChar_of_lt lt, Nat.compare_eq_lt.mpr lt]
        rfl
      · rw [Char.toNat_inj.mp eq, compare_append_left, Std.compare_self]
        exact ih ds
      · rw [Std.OrientedOrd.eq_swap, compare_utf8EncodeChar_of_lt gt,
          Nat.compare_eq_gt.mpr gt]
        rfl

/-- Texts are compared by their bytes as by their code points. -/
theorem compareBytes_eq (s t : String) :
    compareBytes s t = compare (codePoints s) (codePoints t) := by
  rw [compareBytes, bytes_eq, bytes_eq, compare_flatMap]
  rfl

/-! ## The order that this is -/

/-- A list comes first in the comparison if it does so in the lexicographic order. -/
theorem compare_eq_lt_iff {α : Type} [Ord α] [LT α] [LE α] [Std.LawfulOrderOrd α]
    [Std.LawfulOrderLT α] [Std.LawfulEqOrd α] {xs ys : List α} :
    compare xs ys = .lt ↔ xs < ys := by
  induction xs generalizing ys with
  | nil =>
    cases ys with
    | nil => simp
    | cons y ys => exact iff_of_true rfl (List.nil_lt_cons y ys)
  | cons x xs ih =>
    cases ys with
    | nil => exact iff_of_false nofun (List.not_lt_nil _)
    | cons y ys =>
      rw [List.compare_cons_cons, Ordering.then_eq_lt, List.cons_lt_cons_iff, Std.compare_eq_lt,
        Std.compare_eq_iff_eq, ih]

/-- A text comes first in the comparison if its bytes do so in the lexicographic order. -/
theorem compareBytes_eq_lt_iff {s t : String} : compareBytes s t = .lt ↔ bytes s < bytes t :=
  compare_eq_lt_iff

/-- The lexicographic order of texts by their bytes is the one by their code points. -/
theorem bytes_lt_iff {s t : String} : bytes s < bytes t ↔ codePoints s < codePoints t := by
  rw [← compareBytes_eq_lt_iff, compareBytes_eq, compare_eq_lt_iff]

/-- Texts with the same bytes are the same. -/
theorem bytes_injective : Function.Injective bytes := by
  intro s t same
  exact String.toByteArray_inj.mp (ByteArray.ext (Array.toList_inj.mp same))

end PlotEmbedding.Text
