import PlotEmbedding.Text.Blank
import PlotEmbedding.Text.Hexadecimal
import PlotEmbedding.Text.Numeral

/-!
# Window handles

A handle refers to a window without owning it: a signed number of sixty-four bits. It prints as its
bits in hexadecimal with eight digits at least. It is read from a signed numeral, decimal or, behind
`0x` or `0X`, hexadecimal, with blank characters allowed around it. Printing shows the bits and
reading takes a signed value, so a negative handle does not read back from its own text.
-/

namespace PlotEmbedding

open Text

/-- A reference to a window. -/
structure Handle where
  value : Int64
  deriving DecidableEq, Repr

namespace Handle

/-- The handle that refers to no window. -/
def null : Handle := ⟨0⟩

/-- A handle that refers to no window at all. -/
def isNull (h : Handle) : Bool := h == null

/-- The bits of the handle in hexadecimal, eight digits at least. -/
def text (h : Handle) : String := hexText 8 h.value.toUInt64.toNat

/-- The values that a handle can have. -/
def range : Range := ⟨Int64.minValue.toInt, Int64.maxValue.toInt⟩

/-- Sorts a trimmed text into its radix and the numeral behind the mark of the radix. -/
def splitRadix : List Char → Nat × List Char
  | '0' :: 'x' :: numeral => (16, numeral)
  | '0' :: 'X' :: numeral => (16, numeral)
  | numeral => (10, numeral)

/-- Reads a handle from text, in hexadecimal behind `0x` or `0X` and else in decimal. -/
def read (s : String) : Except NumeralError Handle :=
  let (radix, numeral) := splitRadix (trim s.toList)
  (Numeral.read range radix numeral).map fun value => ⟨Int64.ofInt value⟩

end Handle

end PlotEmbedding
