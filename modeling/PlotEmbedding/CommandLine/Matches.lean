import PlotEmbedding.CommandLine.Spelling
import PlotEmbedding.Text.Visible

/-!
# Options and arguments that were read

`Matches` is what has been read for one command so far, and each of its operations takes in one
more thing, or stops the reading.

The value of a setting stands behind `=` or is the next plain word. A value that came as a word of
its own is taken in only when the next option or argument is, or at the end, and it is then that a
missing value or a repetition shows. A word that no rule fits is an error at once, so it goes
before a repetition that has not shown yet.
-/

namespace PlotEmbedding.CommandLine

/-! ## Errors -/

/-- What is wrong with a command line. -/
inductive UsageError where
  /-- No rule fits the word. -/
  | unexpectedArgument (word : String)
  /-- A switch got a value. -/
  | unexpectedValue (value : String) (option : Opt)
  /-- A setting got no value. -/
  | missingValue (option : Opt)
  /-- An option was given twice. -/
  | repeated (option : Opt)
  /-- The word stands where a subcommand should, and is none. -/
  | unrecognizedSubcommand (word : String)
  /-- The tool got options and no subcommand. -/
  | missingSubcommand (tool : String) (words : List String)
  /-- A command did not get its argument. -/
  | missingArgument (argument : Argument)
  deriving DecidableEq, Repr

/-- The wording of a usage error. Of a word that it repeats it gives what shows. -/
def UsageError.message : UsageError → String
  | unexpectedArgument word => "unexpected argument '" ++ Text.visible word ++ "' found"
  | unexpectedValue value option =>
    "unexpected value '" ++ Text.visible value ++ "' for '" ++ option.text ++
      "' found; no more were expected"
  | missingValue option =>
    "a value is required for '" ++ option.text ++ "' but none was supplied"
  | repeated option =>
    "the argument '" ++ option.text ++ "' cannot be used multiple times"
  | unrecognizedSubcommand word => "unrecognized subcommand '" ++ Text.visible word ++ "'"
  | missingSubcommand tool words =>
    "'" ++ tool ++ "' requires a subcommand but one was not provided\n" ++
      "  [subcommands: " ++ ", ".intercalate words ++ "]"
  | missingArgument argument =>
    "the following required arguments were not provided:\n  <" ++ argument.name ++ ">"

/-- Why reading stops before the end of the line. -/
inductive Stop where
  /-- The help page is asked for. -/
  | help
  /-- The version is asked for. -/
  | version
  /-- Something is wrong. -/
  | usage (error : UsageError)
  deriving DecidableEq, Repr

/-! ## Options -/

/-- What has been read for one command so far. -/
structure Matches where
  /-- What was taken in, in the order of the command line. -/
  items : List Item := []
  /-- A setting that is not taken in yet, with its value if that has come. -/
  pending : Option (Setting × Option String) := none
  deriving DecidableEq, Repr

namespace Matches

/-- Takes in an option with its value, unless it was taken in before. -/
def take (m : Matches) (option : Opt) (value : Option String) : Except Stop Matches :=
  if option.name ∈ names m.items then .error (.usage (.repeated option))
  else .ok { m with items := m.items ++ [.option option.name value] }

/-- Takes in the setting that is pending. It has to have got its value. -/
def settle (m : Matches) : Except Stop Matches :=
  match m.pending with
  | none => .ok m
  | some (setting, none) => .error (.usage (.missingValue (.setting setting)))
  | some (setting, some value) => { m with pending := none }.take (.setting setting) (some value)

/-- Takes in a switch. -/
def takeSwitch (m : Matches) (switch : Switch) : Except Stop Matches := do
  let m ← m.settle
  match switch.effect with
  | .help => .error .help
  | .version => .error .version
  | .mark => m.take (.switch switch) none

/-- Takes in a long option. -/
def takeLong (m : Matches) (options : List Opt) (name : String) (value : Option String) :
    Except Stop Matches :=
  match options.find? (·.name == name), value with
  | none, _ => .error (.usage (.unexpectedArgument ("--" ++ name)))
  | some (.switch switch), none => m.takeSwitch switch
  | some (.switch switch), some value =>
    .error (.usage (.unexpectedValue value (.switch switch)))
  | some (.setting setting), none => do
    let m ← m.settle
    .ok { m with pending := some (setting, none) }
  | some (.setting setting), some value => do
    let m ← m.settle
    m.take (.setting setting) (some value)

/-- Takes in the switches of a cluster one after the other. -/
def takeCluster (m : Matches) (options : List Opt) : List Char → Except Stop Matches
  | [] => .ok m
  | flag :: flags =>
    match options.find? (·.short? == some flag) with
    | some (.switch switch) => do
      let m ← m.takeSwitch switch
      m.takeCluster options flags
    | _ => .error (.usage (.unexpectedArgument (String.ofList ['-', flag])))

/-- Takes in the argument of a command, if it has one and has not got it. -/
def takeArgument (m : Matches) (argument : Option Argument) (word : String) :
    Except Stop Matches :=
  match argument, texts m.items with
  | some _, [] => do
    let m ← m.settle
    .ok { m with items := m.items ++ [.argument word] }
  | _, _ => .error (.usage (.unexpectedArgument word))

/-- Takes in a plain word before the end of the options: the value of a setting that waits for one,
or the argument. -/
def takePlain (m : Matches) (argument : Option Argument) (word : String) : Except Stop Matches :=
  match m.pending with
  | some (setting, none) => .ok { m with pending := some (setting, some word) }
  | _ => m.takeArgument argument word

end Matches

end PlotEmbedding.CommandLine
