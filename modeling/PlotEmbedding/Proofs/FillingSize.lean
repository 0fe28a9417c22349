import Mathlib.Algebra.Ring.Int.Defs
import PlotEmbedding.Area

/-!
# The size that fills an area

An extent of an area is the difference of two of its edges, and it is told exactly or not at all.
The height of an area is taken only after its width has been found not to be negative, so an area
that is not laid out gets the fallback size however far apart its top and bottom are. `Area.Fills`
lists what can become of an area, and `Area.fillSize_iff` says which areas unwind, which ones fall
back, and which ones are filled, whether or not their height is negative.
-/

namespace PlotEmbedding

/-- A size is told by its width and its height in the integers. -/
theorem Size.eq_of_toInt {size size' : Size} (widths : size.width.toInt = size'.width.toInt)
    (heights : size.height.toInt = size'.height.toInt) : size = size' := by
  show Size.mk size.width size.height = Size.mk size'.width size'.height
  rw [Int32.toInt_inj.mp widths, Int32.toInt_inj.mp heights]

namespace Area

/-! ## Extents -/

/-- The integer is one of signed thirty-two bits. -/
def Fits (extent : Int) : Prop := -2 ^ 31 ≤ extent ∧ extent ≤ 2 ^ 31 - 1

/-- The distance from the left edge to the right one in the integers. -/
def across (a : Area) : Int := a.right.toInt - a.left.toInt

/-- The distance from the top edge to the bottom one in the integers. -/
def down (a : Area) : Int := a.bottom.toInt - a.top.toInt

/-- What is told of an extent is a number of thirty-two bits. -/
theorem fits_toInt (extent : Int32) : Fits extent.toInt := by
  have low := extent.le_toInt
  have high := extent.toInt_lt
  unfold Fits
  omega

/-- An extent of thirty-two bits is told as it is. -/
theorem exists_extent {low high : Int32} (fits : Fits (high.toInt - low.toInt)) :
    ∃ extent, Area.extent low high = .returned extent ∧ extent.toInt = high.toInt - low.toInt := by
  refine ⟨Int32.ofInt (high.toInt - low.toInt), if_pos fits, ?_⟩
  exact Int32.toInt_ofInt_of_le fits.1 (by unfold Fits at fits; omega)

/-- An extent that leaves thirty-two bits unwinds. -/
theorem extent_eq_unwound {low high : Int32} (far : ¬ Fits (high.toInt - low.toInt)) :
    Area.extent low high = .unwound "attempt to subtract with overflow" :=
  if_neg far

/-! ## The size -/

/-- What becomes of an area, by its extents in the integers. -/
inductive Fills (a : Area) : Ending Size → Prop where
  /-- The width leaves thirty-two bits. -/
  | wide : ¬ Fits a.across → Fills a (.unwound "attempt to subtract with overflow")
  /-- The width is negative. -/
  | unlaid : Fits a.across → a.across < 0 → Fills a (.returned fallbackSize)
  /-- The height leaves thirty-two bits. -/
  | high : Fits a.across → 0 ≤ a.across → ¬ Fits a.down →
      Fills a (.unwound "attempt to subtract with overflow")
  /-- The area has a size. -/
  | sized {size : Size} : 0 ≤ a.across → size.width.toInt = a.across →
      size.height.toInt = a.down → Fills a (.returned size)

/-- The height is taken into account only if the width is not negative. -/
theorem fills_fillSize (a : Area) : Fills a a.fillSize := by
  by_cases across : Fits a.across
  · obtain ⟨width, told, exact⟩ := exists_extent across
    -- The height is asked for in one branch only, so the width is dealt with first.
    have begun : a.fillSize = if width < 0 then .returned fallbackSize else
        a.height.bind fun height => .returned ⟨width, height⟩ := by
      show a.width.bind _ = _
      rw [Area.width, told]
      rfl
    rw [begun]
    split
    · next negative =>
      rw [Int32.lt_iff_toInt_lt, Int32.toInt_zero, exact] at negative
      exact .unlaid across negative
    · next positive =>
      rw [Int32.lt_iff_toInt_lt, Int32.toInt_zero, exact] at positive
      have positive : 0 ≤ a.across := by
        unfold Area.across
        omega
      by_cases down : Fits a.down
      · obtain ⟨height, told', exact'⟩ := exists_extent down
        rw [Area.height, told']
        exact .sized positive exact exact'
      · rw [Area.height, extent_eq_unwound down]
        exact .high across positive down
  · -- The width alone unwinds, whatever the height would have come to.
    have begun : a.fillSize = .unwound "attempt to subtract with overflow" := by
      show a.width.bind _ = _
      rw [Area.width, extent_eq_unwound across]
      rfl
    rw [begun]
    exact .wide across

/-- Only one thing becomes of an area. -/
theorem Fills.unique {a : Area} {ending ending' : Ending Size} (h : Fills a ending)
    (h' : Fills a ending') : ending = ending' := by
  cases h with
  -- The four cases exclude each other by the width and by the height.
  | wide far =>
    cases h' with
    | wide _ => rfl
    | unlaid fits _ => exact absurd fits far
    | high fits _ _ => exact absurd fits far
    | sized _ width _ => exact absurd (width ▸ fits_toInt _) far
  | unlaid fits negative =>
    cases h' with
    | wide far => exact absurd fits far
    | unlaid _ _ => rfl
    | high _ positive _ => omega
    | sized positive _ _ => omega
  | high fits positive far =>
    cases h' with
    | wide far => exact absurd fits far
    | unlaid _ negative => omega
    | high _ _ _ => rfl
    | sized _ _ height => exact absurd (height ▸ fits_toInt _) far
  | sized positive width height =>
    cases h' with
    | wide far => exact absurd (width ▸ fits_toInt _) far
    | unlaid _ negative => omega
    | high _ _ far => exact absurd (height ▸ fits_toInt _) far
    | sized _ width' height' =>
      rw [Size.eq_of_toInt (width.trans width'.symm) (height.trans height'.symm)]

theorem fillSize_eq_iff {a : Area} {ending : Ending Size} :
    a.fillSize = ending ↔ Fills a ending := by
  constructor
  · rintro rfl
    exact fills_fillSize a
  · exact (fills_fillSize a).unique

/-- An area with a size has no negative width, and a negative height if and only if it is laid out
with its bottom above its top. -/
theorem Fills.signs {a : Area} {size : Size} (h : Fills a (.returned size)) :
    0 ≤ size.width ∧ (size.height < 0 ↔ 0 ≤ a.across ∧ a.bottom < a.top) := by
  rw [Int32.le_iff_toInt_le, Int32.lt_iff_toInt_lt, Int32.lt_iff_toInt_lt, Int32.toInt_zero]
  cases h with
  | unlaid _ negative =>
    have width : fallbackSize.width.toInt = 200 := rfl
    have height : fallbackSize.height.toInt = 300 := rfl
    omega
  | sized positive width height =>
    rw [width, height, Area.down]
    omega

/-- An area unwinds if its width leaves thirty-two bits, or if it is not negative and the height
does. An area of negative width gets the fallback size, whatever its height, and every other area
its exact size. So no width is negative, and a height is if the area is laid out and its bottom is
above its top. -/
theorem fillSize_iff (a : Area) :
    (∀ panic, a.fillSize = .unwound panic ↔ panic = "attempt to subtract with overflow" ∧
      (¬ Fits a.across ∨ 0 ≤ a.across ∧ ¬ Fits a.down)) ∧
    (∀ size, a.fillSize = .returned size ↔
      Fits a.across ∧ a.across < 0 ∧ size = fallbackSize ∨
      0 ≤ a.across ∧ size.width.toInt = a.across ∧ size.height.toInt = a.down) ∧
    ∀ size, a.fillSize = .returned size →
      0 ≤ size.width ∧ (size.height < 0 ↔ 0 ≤ a.across ∧ a.bottom < a.top) := by
  simp only [fillSize_eq_iff]
  refine ⟨fun panic => ⟨?_, ?_⟩, fun size => ⟨?_, ?_⟩, fun size => Fills.signs⟩
  · rintro (far | - | ⟨-, positive, far⟩)
    · exact ⟨rfl, .inl far⟩
    · exact ⟨rfl, .inr ⟨positive, far⟩⟩
  · rintro ⟨rfl, far⟩
    by_cases fits : Fits a.across
    · obtain ⟨positive, far⟩ := far.resolve_left (not_not_intro fits)
      exact .high fits positive far
    · exact .wide fits
  · rintro (- | ⟨fits, negative⟩ | - | ⟨positive, width, height⟩)
    · exact .inl ⟨fits, negative, rfl⟩
    · exact .inr ⟨positive, width, height⟩
  · rintro (⟨fits, negative, rfl⟩ | ⟨positive, width, height⟩)
    · exact .unlaid fits negative
    · exact .sized positive width height

/-- An area that is not laid out falls back although its top and bottom are too far apart, and one
that is laid out upside down has a negative height. -/
theorem fillSize_of_upturned :
    fillSize { left := 1, top := Int32.minValue, bottom := Int32.maxValue } =
      .returned fallbackSize ∧
    fillSize { right := 5, top := 10, bottom := 3 } = .returned ⟨5, -7⟩ ∧
    (0 : Int32) ≤ 5 ∧ (-7 : Int32) < 0 := by
  have unlaid := fillSize_iff { left := 1, top := Int32.minValue, bottom := Int32.maxValue }
  have upturned := fillSize_iff { right := 5, top := 10, bottom := 3 }
  have size : fillSize { right := 5, top := 10, bottom := 3 } = .returned ⟨5, -7⟩ :=
    (upturned.2.1 ⟨5, -7⟩).mpr (.inr (by decide))
  -- The signs are read off the general statement, not off the computed size.
  obtain ⟨width, height⟩ := upturned.2.2 ⟨5, -7⟩ size
  exact ⟨(unlaid.2.1 fallbackSize).mpr (.inl (by unfold Fits; decide)), size, width,
    height.mpr (by decide)⟩

end Area

end PlotEmbedding
