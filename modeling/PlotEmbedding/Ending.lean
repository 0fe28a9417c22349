/-!
# Endings

A computation ends in one of two ways: it returns a value, or it unwinds with the text of a panic.
Unwinding passes through everything that waits for the value.
-/

namespace PlotEmbedding

/-- How a computation ended. -/
inductive Ending (α : Type) where
  /-- It returned a value. -/
  | returned (value : α)
  /-- It unwound with the text of a panic. -/
  | unwound (panic : String)
  deriving DecidableEq, Repr

namespace Ending

variable {α β : Type}

/-- Goes on with a returned value; an unwinding stays as it is. -/
def bind : Ending α → (α → Ending β) → Ending β
  | returned a, next => next a
  | unwound panic, _ => unwound panic

instance : Monad Ending where
  pure := returned
  bind := bind

/-- Applies a function to a returned value. -/
def map (f : α → β) : Ending α → Ending β
  | returned a => returned (f a)
  | unwound panic => unwound panic

/-- The value of an ending that returned. -/
def value? : Ending α → Option α
  | returned a => some a
  | unwound _ => none

end Ending

end PlotEmbedding
