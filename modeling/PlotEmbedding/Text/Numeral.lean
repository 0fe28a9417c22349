/-!
# Reading signed numerals

A numeral is an optional sign and then digits of a radix. `Numeral.read` goes through the characters
from left to right and blames the first one that offends: a character that is no digit, or a digit
with which the value leaves the range. At one character the digit test comes first.
-/

namespace PlotEmbedding.Text

/-- The ways in which a text fails to be a numeral in range. -/
inductive NumeralError where
  /-- There is nothing to read. -/
  | empty
  /-- A character is no digit of the radix, or there is no digit at all. -/
  | invalidDigit
  /-- The value exceeds the range. -/
  | tooLarge
  /-- The value stays below the range. -/
  | tooSmall
  deriving DecidableEq, Repr

namespace NumeralError

/-- The wording of a numeral error. -/
def message : NumeralError → String
  | empty => "cannot parse integer from empty string"
  | invalidDigit => "invalid digit found in string"
  | tooLarge => "number too large to fit in target type"
  | tooSmall => "number too small to fit in target type"

end NumeralError

/-- The value of an ASCII digit or letter as a digit; letters count from ten in either case. -/
def digitValue (c : Char) : Option Nat :=
  if '0' ≤ c ∧ c ≤ '9' then some (c.toNat - '0'.toNat)
  else if 'a' ≤ c ∧ c ≤ 'z' then some (c.toNat - 'a'.toNat + 10)
  else if 'A' ≤ c ∧ c ≤ 'Z' then some (c.toNat - 'A'.toNat + 10)
  else none

/-- The value of a character as a digit of the radix. -/
def digitOf (radix : Nat) (c : Char) : Option Nat := (digitValue c).filter (· < radix)

/-- The closed range of integers in which a numeral has to lie. -/
structure Range where
  least : Int
  greatest : Int
  deriving DecidableEq, Repr

namespace Numeral

/-- The two signs: digits are added on the positive side and subtracted on the negative one. -/
inductive Sign where
  | plus
  | minus
  deriving DecidableEq, Repr

/-- The value once the digit has been appended to a numeral of value `acc`. -/
def append (radix : Nat) (sign : Sign) (acc : Int) (digit : Nat) : Int :=
  match sign with
  | .plus => acc * radix + digit
  | .minus => acc * radix - digit

/-- Reads digits onto the value `acc`, which stops at the first offender. -/
def readDigits (range : Range) (radix : Nat) (sign : Sign) :
    List Char → Int → Except NumeralError Int
  | [], acc => .ok acc
  | c :: cs, acc =>
    match digitOf radix c with
    | none => .error .invalidDigit
    | some digit =>
      let next := append radix sign acc digit
      if range.greatest < next then .error .tooLarge
      else if next < range.least then .error .tooSmall
      else readDigits range radix sign cs next

/-- Reads one digit or more: a numeral without any is invalid. -/
def readUnsigned (range : Range) (radix : Nat) (sign : Sign) :
    List Char → Except NumeralError Int
  | [] => .error .invalidDigit
  | c :: cs => readDigits range radix sign (c :: cs) 0

/-- Reads an optional sign and then digits of the radix. -/
def read (range : Range) (radix : Nat) : List Char → Except NumeralError Int
  | [] => .error .empty
  | '+' :: cs => readUnsigned range radix .plus cs
  | '-' :: cs => readUnsigned range radix .minus cs
  | c :: cs => readUnsigned range radix .plus (c :: cs)

end Numeral

end PlotEmbedding.Text
