/-!
# UTF-16 code units

Text as a list of sixteen-bit units. `encode` writes a text as units, and `decode` reads units back,
which fails when a surrogate has no partner.
-/

namespace PlotEmbedding.Text

/-- The units of one character: a surrogate pair from U+10000 on, else the code point itself. -/
def encodeChar (c : Char) : List UInt16 :=
  if c.toNat < 0x10000 then [c.toNat.toUInt16]
  else
    [(0xD800 + (c.toNat - 0x10000) / 0x400).toUInt16,
     (0xDC00 + (c.toNat - 0x10000) % 0x400).toUInt16]

/-- The units of a text. -/
def encode (s : String) : List UInt16 := s.toList.flatMap encodeChar

/-- A unit that opens a surrogate pair. -/
def isHighSurrogate (u : UInt16) : Bool := 0xD800 ≤ u && u < 0xDC00

/-- A unit that closes a surrogate pair. -/
def isLowSurrogate (u : UInt16) : Bool := 0xDC00 ≤ u && u < 0xE000

/-- The character of a surrogate pair. -/
def pairedChar (high low : UInt16) : Char :=
  Char.ofNat (0x10000 + (high.toNat - 0xD800) * 0x400 + (low.toNat - 0xDC00))

/-- The characters that the units stand for, if every surrogate has its partner. -/
def decodeChars : List UInt16 → Option (List Char)
  | [] => some []
  | u :: rest =>
    if isHighSurrogate u then
      match rest with
      | low :: rest' =>
        if isLowSurrogate low then (decodeChars rest').map (pairedChar u low :: ·) else none
      | [] => none
    else if isLowSurrogate u then none
    else (decodeChars rest).map (Char.ofNat u.toNat :: ·)

/-- The text that the units stand for, if they are well formed. -/
def decode (units : List UInt16) : Option String := (decodeChars units).map String.ofList

end PlotEmbedding.Text
