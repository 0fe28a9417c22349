import PlotEmbedding.Proofs.Text.Hexadecimal

/-!
# Headings and fields

A wording is a heading and what comes behind it, which may be any text. When no heading begins with
another one, `PrefixFree.eq_of_append_eq` takes a wording apart in one way only. A field of a
wording ends where a delimiter begins whose first character the field does not have, and
`eq_of_delimited_eq` takes two such wordings apart at the same place. `FieldText` says of the texts
of values that they can be fields, so that the value can be told from the wording. Numbers, in
hexadecimal and in decimal, have neither a comma nor a cross in the middle of them.
-/

namespace PlotEmbedding.Text

/-! ## Headings -/

/-- No heading begins with another one. -/
def PrefixFree {κ : Type} (heading : κ → String) : Prop :=
  ∀ k k', (heading k).toList <+: (heading k').toList → k = k'

/-- A wording has one heading, and one rest behind it. -/
theorem PrefixFree.eq_of_append_eq {κ : Type} {heading : κ → String} (free : PrefixFree heading)
    {k k' : κ} {s t : String} (same : heading k ++ s = heading k' ++ t) : k = k' ∧ s = t := by
  have chars : (heading k).toList ++ s.toList = (heading k').toList ++ t.toList := by
    rw [← String.toList_append, ← String.toList_append, same]
  have headings : k = k' := by
    have first : (heading k).toList <+: (heading k').toList ++ t.toList := ⟨_, chars⟩
    rcases List.prefix_or_prefix_of_prefix first (List.prefix_append _ _) with h | h
    · exact free k k' h
    · exact (free k' k h).symm
  subst headings
  exact ⟨rfl, String.append_right_inj _ |>.mp same⟩

/-! ## Fields -/

/-- What comes before the first occurrence of a character, and what comes behind it, is settled. -/
theorem eq_of_append_cons_eq {c : Char} {s t u v : List Char} (hs : c ∉ s) (ht : c ∉ t)
    (same : s ++ c :: u = t ++ c :: v) : s = t ∧ u = v := by
  induction s generalizing t with
  | nil =>
    cases t with
    | nil => exact ⟨rfl, (List.cons.inj same).2⟩
    | cons d t => exact absurd ((List.cons.inj same).1 ▸ List.mem_cons_self) ht
  | cons a s ih =>
    cases t with
    | nil => exact absurd ((List.cons.inj same).1 ▸ List.mem_cons_self) hs
    | cons d t =>
      obtain ⟨rfl, tails⟩ := List.cons.inj same
      obtain ⟨rfl, rests⟩ :=
        ih (mt (List.mem_cons_of_mem _) hs) (mt (List.mem_cons_of_mem _) ht) tails
      exact ⟨rfl, rests⟩

/-- A field that lacks the first character of the delimiter ends where the delimiter begins. -/
theorem eq_of_delimited_eq {c : Char} {delimiter s t u v : String}
    (first : delimiter.toList.head? = some c) (hs : c ∉ s.toList) (ht : c ∉ t.toList)
    (same : s ++ (delimiter ++ u) = t ++ (delimiter ++ v)) : s = t ∧ u = v := by
  obtain ⟨rest, split⟩ : ∃ rest, delimiter.toList = c :: rest := List.head?_eq_some_iff.mp first
  have chars : s.toList ++ c :: (rest ++ u.toList) = t.toList ++ c :: (rest ++ v.toList) := by
    have lists := congrArg String.toList same
    simpa only [String.toList_append, split, List.cons_append] using lists
  obtain ⟨fields, rests⟩ := eq_of_append_cons_eq hs ht chars
  exact ⟨String.toList_inj.mp fields, String.toList_inj.mp (List.append_cancel_left rests)⟩

/-- The texts of values tell the values apart, and lack a character. -/
structure FieldText {α : Type} (c : Char) (text : α → String) : Prop where
  injective : Function.Injective text
  lacks : ∀ a, c ∉ (text a).toList

/-- The value of a field can be told if the delimiter begins with the character that its text lacks.
-/
theorem FieldText.eq_of_delimited_eq {α : Type} {c : Char} {text : α → String}
    (field : FieldText c text) {delimiter u v : String} (first : delimiter.toList.head? = some c)
    {a b : α} (same : text a ++ (delimiter ++ u) = text b ++ (delimiter ++ v)) : a = b ∧ u = v := by
  obtain ⟨texts, rests⟩ := Text.eq_of_delimited_eq first (field.lacks a) (field.lacks b) same
  exact ⟨field.injective texts, rests⟩

/-- A number in hexadecimal is a field without a comma. -/
theorem comma_notMem_hexText (width n : Nat) : ',' ∉ (hexText width n).toList := by
  obtain ⟨cs, ds, text, -, spells, -⟩ := exists_spells_hexText width n
  rw [text]
  intro among
  rcases List.mem_cons.mp among with same | among
  · exact absurd same (by decide)
  rcases List.mem_cons.mp among with same | among
  · exact absurd same (by decide)
  obtain ⟨d, digit⟩ := spells.isDigit_of_mem among
  exact nomatch (digitOf_iff (by omega)).mpr digit

/-- A number in decimal is a field of digits, and of a minus sign. -/
theorem isDigit_of_mem_repr {z : Int} {c : Char} (among : c ∈ z.repr.toList) :
    c = '-' ∨ c.isDigit = true := by
  rw [Int.repr_eq_if] at among
  split at among
  · rw [Nat.toList_repr] at among
    exact .inr (Nat.isDigit_of_mem_toDigits (by omega) (by omega) among)
  · rw [String.toList_append, Nat.toList_repr] at among
    rcases List.mem_append.mp among with minus | among
    · exact .inl (List.mem_singleton.mp minus)
    · exact .inr (Nat.isDigit_of_mem_toDigits (by omega) (by omega) among)

/-- Neither a comma nor a cross is in the middle of a number in decimal. -/
theorem notMem_repr (z : Int) : ',' ∉ z.repr.toList ∧ 'x' ∉ z.repr.toList := by
  constructor
  · intro among
    rcases isDigit_of_mem_repr among with h | h <;> exact absurd h (by decide)
  · intro among
    rcases isDigit_of_mem_repr among with h | h <;> exact absurd h (by decide)

end PlotEmbedding.Text
