/-!
# Hexadecimal text

Numbers written in lower case hexadecimal behind the mark `0x`, and the zero padding that gives a
written number a least width.
-/

namespace PlotEmbedding.Text

/-- Puts zeros in front until there are at least `width` digits. -/
def padZeros (width : Nat) (digits : List Char) : List Char :=
  List.replicate (width - digits.length) '0' ++ digits

/-- The number in hexadecimal behind `0x`, with at least `width` digits. -/
def hexText (width n : Nat) : String :=
  String.ofList ('0' :: 'x' :: padZeros width (Nat.toDigits 16 n))

end PlotEmbedding.Text
