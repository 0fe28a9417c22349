/-!
# Words of a command line

`--name` and `--name=value` are long options, `-abc` is a cluster of switches, `--` ends the
options, and every other word is plain, a single dash among them.
-/

namespace PlotEmbedding.CommandLine

/-- What a word looks like. -/
inductive Word where
  /-- The end of the options. -/
  | escape
  | long (name : String) (value : Option String)
  | cluster (flags : List Char)
  | plain
  deriving DecidableEq, Repr

/-- Splits a long option into its name and the value behind the first equals sign. -/
def splitValue (cs : List Char) : String × Option String :=
  (String.ofList (cs.takeWhile (· ≠ '=')),
    match cs.dropWhile (· ≠ '=') with
    | [] => none
    | _ :: value => some (String.ofList value))

/-- What a word looks like, by its characters. -/
def Word.ofChars : List Char → Word
  | ['-', '-'] => .escape
  | '-' :: '-' :: rest => .long (splitValue rest).1 (splitValue rest).2
  | ['-'] => .plain
  | '-' :: flags => .cluster flags
  | _ => .plain

/-- What a word looks like. -/
def Word.ofText (word : String) : Word := .ofChars word.toList

end PlotEmbedding.CommandLine
