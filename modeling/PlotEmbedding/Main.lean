import PlotEmbedding.CommandLine.Tasks

/-!
# The tool

Answers the command line.
-/

open PlotEmbedding.CommandLine in
def main (words : List String) : IO UInt32 := do
  let answer := answer words
  (← IO.getStdout).putStr answer.stdout
  (← IO.getStderr).putStr answer.stderr
  return answer.code.toUInt32
