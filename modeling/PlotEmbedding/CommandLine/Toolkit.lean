import PlotEmbedding.CommandLine.Spelling
import PlotEmbedding.Failure

/-!
# What a tool leaves to others

A tool describes its command line and carries out its tasks. Reading a command line by this
description, writing down an error and colouring a text are no work of its own: they are the
operations of a `Toolkit`. `Toolkit.Documented` says what a tool relies on there.
-/

namespace PlotEmbedding.CommandLine

/-- What the tool prints, and the code that it exits with. -/
structure Answer where
  code : UInt8
  stdout : String := ""
  stderr : String := ""
  deriving DecidableEq, Repr

/-- An error on the way to the user: what could not be done, and the cause. -/
structure Complaint where
  context : String
  cause : EmbedError
  deriving DecidableEq, Repr

/-- The operations that a tool leaves to others. -/
structure Toolkit (κ : Type) where
  /-- Reads a command line. If there is no call to carry out, it ends the run with an answer of its
  own: a help page, the version or an error in usage. -/
  read : Tool κ → List String → Except Answer (Call κ)
  /-- Writes down a complaint that came up in a task. -/
  render : Complaint → κ → String
  /-- Makes a text stand out. -/
  highlight : String → String

end PlotEmbedding.CommandLine
