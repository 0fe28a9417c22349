import PlotEmbedding.Ending

/-!
# Areas and sizes

The client area of a window is given by four signed numbers of thirty-two bits. Its width and
height are differences, and a difference that leaves thirty-two bits is a panic. `Area.fillSize` is
the size that an embedded plot gets so that it fills the area.
-/

namespace PlotEmbedding

/-- A width and a height. -/
structure Size where
  width : Int32
  height : Int32
  deriving DecidableEq, Repr

/-- The size of a plot whose host has no valid client area yet. -/
def fallbackSize : Size := ⟨200, 300⟩

/-- A rectangle given by its edges. -/
structure Area where
  left : Int32 := 0
  top : Int32 := 0
  right : Int32 := 0
  bottom : Int32 := 0
  deriving DecidableEq, Repr

namespace Area

/-- The difference of two edges, which unwinds when it leaves thirty-two bits. -/
def extent (low high : Int32) : Ending Int32 :=
  let difference := high.toInt - low.toInt
  if Int32.minValue.toInt ≤ difference ∧ difference ≤ Int32.maxValue.toInt then
    .returned (Int32.ofInt difference)
  else .unwound "attempt to subtract with overflow"

/-- The distance from the left edge to the right one. -/
def width (a : Area) : Ending Int32 := extent a.left a.right

/-- The distance from the top edge to the bottom one. -/
def height (a : Area) : Ending Int32 := extent a.top a.bottom

/-- The size that fills the area. An area of negative width is not laid out yet and gets the
fallback size, without a look at its height. -/
def fillSize (a : Area) : Ending Size := do
  let width ← a.width
  if width < 0 then return fallbackSize
  let height ← a.height
  return ⟨width, height⟩

end Area

end PlotEmbedding
