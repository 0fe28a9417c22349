import Mathlib.Data.List.TakeWhile
import PlotEmbedding.CommandLine.Reading

/-!
# The shapes of words

Each spelling of an option or an argument has its own shape as a word, and the shape of a word says
what it spells.
-/

namespace PlotEmbedding.CommandLine

/-- A text that may be the name of an option: not empty, and without an equals sign. -/
def IsName (name : String) : Prop := name ≠ "" ∧ '=' ∉ name.toList

instance (name : String) : Decidable (IsName name) := inferInstanceAs (Decidable (_ ∧ _))

variable {word name value : String} {letters cs : List Char}

/-! ## Long options -/

/-- Without an equals sign all is name. -/
theorem splitValue_of_notMem (named : '=' ∉ cs) : splitValue cs = (String.ofList cs, none) := by
  have other : ∀ c ∈ cs, decide (c ≠ '=') = true := fun c mem =>
    decide_eq_true fun eq => named (eq ▸ mem)
  rw [splitValue, List.takeWhile_eq_self_iff.mpr other, List.dropWhile_eq_nil_iff.mpr other]

/-- The value begins behind the first equals sign. -/
theorem splitValue_append (named : '=' ∉ cs) (value : List Char) :
    splitValue (cs ++ '=' :: value) = (String.ofList cs, some (String.ofList value)) := by
  have other : ∀ c ∈ cs, decide (c ≠ '=') = true := fun c mem =>
    decide_eq_true fun eq => named (eq ▸ mem)
  rw [splitValue, List.takeWhile_append_of_pos other, List.dropWhile_append_of_pos other]
  simp

/-- The parts of a long option make up the whole again. -/
theorem toList_of_splitValue (cs : List Char) :
    cs = (splitValue cs).1.toList ++ (splitValue cs).2.elim [] ('=' :: ·.toList) := by
  rw [splitValue, String.toList_ofList]
  cases split : cs.dropWhile (· ≠ '=') with
  | nil => rw [Option.elim_none, ← split, List.takeWhile_append_dropWhile]
  | cons c value =>
    have stop := List.head?_dropWhile_not (· ≠ '=') cs
    rw [split] at stop
    obtain rfl : c = '=' := by simpa using stop
    rw [Option.elim_some, String.toList_ofList, ← split, List.takeWhile_append_dropWhile]

namespace Word

/-! ## From the spelling to the shape -/

/-- Two dashes and a name are an option without a value. -/
theorem ofText_long (named : IsName name) : ofText ("--" ++ name) = .long name none := by
  have some : name.toList ≠ [] := fun nil => named.1 (String.toList_eq_nil_iff.mp nil)
  obtain ⟨c, rest, split⟩ := List.exists_cons_of_ne_nil some
  have shape := splitValue_of_notMem named.2
  rw [ofText, String.toList_append, split]
  show Word.long (splitValue (c :: rest)).1 (splitValue (c :: rest)).2 = _
  rw [← split, shape, String.ofList_toList]

/-- Behind an equals sign there is the value. -/
theorem ofText_equals (named : IsName name) (value : String) :
    ofText ("--" ++ name ++ "=" ++ value) = .long name (some value) := by
  have some : name.toList ≠ [] := fun nil => named.1 (String.toList_eq_nil_iff.mp nil)
  obtain ⟨c, rest, split⟩ := List.exists_cons_of_ne_nil some
  have shape := splitValue_append named.2 value.toList
  have chars : ("--" ++ name ++ "=" ++ value).toList =
      '-' :: '-' :: (name.toList ++ '=' :: value.toList) := by
    simp
  rw [ofText, chars, split]
  show Word.long (splitValue (c :: rest ++ _)).1 (splitValue (c :: rest ++ _)).2 = _
  rw [← split, shape, String.ofList_toList, String.ofList_toList]

/-- One dash and letters, of which the first is no dash, are a cluster. -/
theorem ofText_cluster (some : letters ≠ []) (first : letters.head? ≠ Option.some '-') :
    ofText (String.ofList ('-' :: letters)) = .cluster letters := by
  obtain ⟨c, rest, rfl⟩ := List.exists_cons_of_ne_nil some
  rw [ofText, String.toList_ofList, ofChars.eq_def]
  split <;> simp_all

/-- The shape of a word that does not look like an option. -/
theorem ofText_of_isPlain (plain : IsPlain word) : ofText word = .plain := by
  rcases plain with rfl | other
  · rfl
  · rw [ofText, ofChars.eq_def]
    split <;> simp_all

/-! ## From the shape to the spelling -/

/-- Only two dashes end the options. -/
theorem eq_of_escape (shape : ofText word = .escape) : word = "--" := by
  rw [ofText, ofChars.eq_def] at shape
  split at shape
  · next chars => exact String.toList_inj.mp chars
  all_goals cases shape

/-- An option without a value is spelled by its name. -/
theorem eq_of_long (shape : ofText word = .long name none) : word = "--" ++ name := by
  rw [ofText, ofChars.eq_def] at shape
  split at shape
  · cases shape
  · next rest _ chars =>
    obtain ⟨rfl, none⟩ := Word.long.inj shape
    have whole := toList_of_splitValue rest
    rw [none, Option.elim_none, List.append_nil] at whole
    rw [← String.toList_inj, String.toList_append, ← whole, chars]
    rfl
  all_goals cases shape

/-- An option with a value is spelled by its name and the value. -/
theorem eq_of_equals (shape : ofText word = .long name (some value)) :
    word = "--" ++ name ++ "=" ++ value := by
  rw [ofText, ofChars.eq_def] at shape
  split at shape
  · cases shape
  · next rest _ chars =>
    obtain ⟨rfl, value⟩ := Word.long.inj shape
    have whole := toList_of_splitValue rest
    rw [value, Option.elim_some] at whole
    have chars : word.toList = '-' :: '-' :: (_ ++ '=' :: _) := chars.trans (by rw [← whole])
    rw [← String.toList_inj, chars]
    simp
  all_goals cases shape

/-- A cluster is spelled by its letters. There are some. -/
theorem eq_of_cluster (shape : ofText word = .cluster letters) :
    word = String.ofList ('-' :: letters) ∧ letters ≠ [] := by
  rw [ofText, ofChars.eq_def] at shape
  split at shape
  · cases shape
  · cases shape
  · cases shape
  · next flags _ _ lone chars =>
    obtain rfl := Word.cluster.inj shape
    exact ⟨by rw [← String.toList_inj, String.toList_ofList, chars], fun nil => lone (by rw [nil])⟩
  · cases shape

/-- A word without another shape does not look like an option. -/
theorem isPlain_of_ofText (shape : ofText word = .plain) : IsPlain word := by
  rw [ofText, ofChars.eq_def] at shape
  split at shape
  · cases shape
  · cases shape
  · next chars => exact .inl (String.toList_inj.mp chars)
  · cases shape
  · next other =>
    refine .inr fun first => ?_
    obtain ⟨rest, chars⟩ := List.head?_eq_some_iff.mp first
    exact other rest chars

end Word

end PlotEmbedding.CommandLine
