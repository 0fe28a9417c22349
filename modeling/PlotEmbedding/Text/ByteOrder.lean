/-!
# The order of texts by their bytes

Texts compared as lists of UTF-8 bytes.
-/

namespace PlotEmbedding.Text

/-- The UTF-8 bytes of a text. -/
def bytes (s : String) : List UInt8 := s.toByteArray.data.toList

/-- Compares two texts by their bytes: the first difference decides, and of two texts of which one
begins with the other the shorter comes first. -/
def compareBytes (s t : String) : Ordering := compare (bytes s) (bytes t)

example : compareBytes "z" "é" = .lt := by decide

end PlotEmbedding.Text
