import PlotEmbedding.Text.Blank
import Mathlib.Data.List.TakeWhile

/-!
# Blank ends

What is left of a text once the blank characters at both ends are gone. `Trims` says it without an
order of steps, and `trims_iff` says that `trim` finds it.
-/

namespace PlotEmbedding.Text

/-- The text does not begin with a blank character. -/
def Bare (cs : List Char) : Prop := ∀ c rest, cs = c :: rest → isBlank c = false

/-- The second text is the first one without the blank characters at its ends. -/
def Trims (s t : List Char) : Prop :=
  ∃ before after, s = before ++ t ++ after ∧ (∀ c ∈ before, isBlank c = true) ∧
    (∀ c ∈ after, isBlank c = true) ∧ Bare t ∧ Bare t.reverse

/-- Blank characters in front make no difference. -/
theorem trimStart_append {before cs : List Char} (blank : ∀ c ∈ before, isBlank c = true) :
    trimStart (before ++ cs) = trimStart cs :=
  List.dropWhile_append_of_pos blank

/-- A text that does not begin with a blank character stays as it is. -/
theorem trimStart_of_bare {cs : List Char} (bare : Bare cs) : trimStart cs = cs := by
  cases cs with
  | nil => rfl
  | cons c rest => exact List.dropWhile_cons_of_neg (by simp [bare c rest rfl])

/-- Nothing blank is left at the front. -/
theorem bare_trimStart (cs : List Char) : Bare (trimStart cs) := by
  induction cs with
  | nil => exact nofun
  | cons c cs ih =>
    rw [trimStart, List.dropWhile_cons]
    split
    · exact ih
    · next graph =>
      rintro d rest ⟨⟩
      exact Bool.not_eq_true _ ▸ graph

/-- What is dropped from the front is blank. -/
theorem exists_append_trimStart (cs : List Char) :
    ∃ before, cs = before ++ trimStart cs ∧ ∀ c ∈ before, isBlank c = true :=
  ⟨cs.takeWhile isBlank, List.takeWhile_append_dropWhile.symm, fun _ => List.mem_takeWhile_imp⟩

/-- A beginning of a text that does not begin with a blank character does not either. -/
theorem Bare.of_append {cs after : List Char} (bare : Bare (cs ++ after)) : Bare cs := by
  rintro c rest rfl
  exact bare c (rest ++ after) rfl

theorem trims_trim (s : List Char) : Trims s (trim s) := by
  obtain ⟨before, front, blank⟩ := exists_append_trimStart s
  obtain ⟨after, back, blank'⟩ := exists_append_trimStart (trimStart s).reverse
  have middle : trimStart s = trim s ++ after.reverse := by
    rw [← List.reverse_reverse (trimStart s), back, List.reverse_append]
    rfl
  refine ⟨before, after.reverse, ?_, blank, by simpa using blank', ?_, ?_⟩
  · rw [List.append_assoc, ← middle, ← front]
  · exact Bare.of_append (middle ▸ bare_trimStart s)
  · rw [trim, List.reverse_reverse]
    exact bare_trimStart _

/-- What is left without the blank ends is what `trim` finds. -/
theorem trims_iff {s t : List Char} : Trims s t ↔ t = trim s := by
  constructor
  · rintro ⟨before, after, rfl, blank, blank', bare, bare'⟩
    have front : trimStart (before ++ t ++ after) = trimStart (t ++ after) := by
      rw [List.append_assoc, trimStart_append blank]
    cases t with
    | nil =>
      -- There are only blank characters.
      have all : trimStart after = [] := by
        rw [← List.append_nil after, trimStart_append blank']
        rfl
      rw [trim, front, List.nil_append, all]
      rfl
    | cons c rest =>
      have kept : trimStart (c :: rest ++ after) = c :: rest ++ after :=
        trimStart_of_bare fun d more same => bare d rest (by cases same; rfl)
      have back : ∀ d ∈ after.reverse, isBlank d = true := fun d among =>
        blank' d (List.mem_reverse.mp among)
      rw [trim, front, kept, List.reverse_append, trimStart_append back, trimStart_of_bare bare',
        List.reverse_reverse]
  · rintro rfl
    exact trims_trim s

/-- A text without blank characters is what is left of it between blank ends. -/
theorem trims_of_graphic {before t after : List Char} (blank : ∀ c ∈ before, isBlank c = true)
    (blank' : ∀ c ∈ after, isBlank c = true) (graphic : ∀ c ∈ t, isBlank c = false) :
    Trims (before ++ t ++ after) t := by
  refine ⟨before, after, rfl, blank, blank', ?_, ?_⟩
  · rintro c rest rfl
    exact graphic c List.mem_cons_self
  · intro c rest same
    refine graphic c (List.mem_reverse.mp ?_)
    rw [same]
    exact List.mem_cons_self

end PlotEmbedding.Text
