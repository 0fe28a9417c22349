/-!
# Blank characters

The characters with the Unicode property `White_Space`, and `trim`, which strips them from both ends
of a text. The property has twenty-five members; `Char.isWhitespace` knows only the ASCII ones, so
the table is spelled out here.
-/

namespace PlotEmbedding.Text

/-- The code points with the property `White_Space`, in ascending order. -/
def blankCodePoints : List Nat :=
  [0x9, 0xA, 0xB, 0xC, 0xD, 0x20, 0x85, 0xA0, 0x1680,
   0x2000, 0x2001, 0x2002, 0x2003, 0x2004, 0x2005, 0x2006, 0x2007, 0x2008, 0x2009, 0x200A,
   0x2028, 0x2029, 0x202F, 0x205F, 0x3000]

/-- A character is blank when it has the property `White_Space`. -/
def isBlank (c : Char) : Bool := blankCodePoints.contains c.toNat

/-- Drops the blank characters from the front. -/
def trimStart (cs : List Char) : List Char := cs.dropWhile isBlank

/-- Drops the blank characters from both ends. -/
def trim (cs : List Char) : List Char := (trimStart (trimStart cs).reverse).reverse

example : blankCodePoints.length = 25 := rfl

example : trim [' ', '\u3000', 'a', ' ', 'b', '\n'] = ['a', ' ', 'b'] := by decide

end PlotEmbedding.Text
