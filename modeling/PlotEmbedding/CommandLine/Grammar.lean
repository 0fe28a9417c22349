/-!
# Command line grammars

A tool has switches of its own and subcommands, each with a word, perhaps an alias, options and at
most one argument. An option is a switch, which is there or not, or a setting, which takes a value.
Every tool also has the subcommand `help`.
-/

namespace PlotEmbedding.CommandLine

/-- What a switch does when it is given. -/
inductive Effect where
  /-- It is remembered. -/
  | mark
  /-- The help page is shown at once. -/
  | help
  /-- The version is shown at once. -/
  | version
  deriving DecidableEq, Repr

/-- An option without a value. -/
structure Switch where
  name : String
  short : Option Char := none
  effect : Effect := .mark
  about : String
  deriving DecidableEq, Repr

/-- An option with a value. -/
structure Setting where
  name : String
  valueName : String
  default : String
  about : String
  deriving DecidableEq, Repr

/-- An option of a command. -/
inductive Opt where
  /-- An option without a value. -/
  | switch (switch : Switch)
  /-- An option with a value. -/
  | setting (setting : Setting)
  deriving DecidableEq, Repr

namespace Opt

/-- The name of an option, without dashes. -/
def name : Opt → String
  | switch s => s.name
  | setting s => s.name

/-- The letter that stands for an option behind one dash. -/
def short? : Opt → Option Char
  | switch s => s.short
  | setting _ => none

/-- An option as it is written out, with the name of its value. -/
def text : Opt → String
  | switch s => "--" ++ s.name
  | setting s => "--" ++ s.name ++ " <" ++ s.valueName ++ ">"

end Opt

/-- The argument of a command, which has to be there. -/
structure Argument where
  name : String
  about : String
  deriving DecidableEq, Repr

/-- A subcommand, known to the program as `key`. -/
structure Subcommand (κ : Type) where
  key : κ
  name : String
  aliasName : Option String := none
  about : String
  options : List Opt
  argument : Option Argument := none
  deriving Repr

/-- The words that stand for a subcommand. -/
def Subcommand.words {κ : Type} (s : Subcommand κ) : List String := s.name :: s.aliasName.toList

/-- A tool with subcommands. -/
structure Tool (κ : Type) where
  name : String
  version : String
  about : String
  switches : List Switch
  subcommands : List (Subcommand κ)
  deriving Repr

/-- The word of the subcommand that shows help pages. -/
def helpWord : String := "help"

namespace Tool

variable {κ : Type}

/-- The options of a tool itself. -/
def options (tool : Tool κ) : List Opt := tool.switches.map .switch

/-- The subcommand that a word stands for, matched exactly. -/
def find? (tool : Tool κ) (word : String) : Option (Subcommand κ) :=
  tool.subcommands.find? fun s => s.words.contains word

/-- A word that stands for a subcommand, the help command among them. -/
def knows (tool : Tool κ) (word : String) : Bool :=
  word == helpWord || (tool.find? word).isSome

/-- All words that stand for subcommands. -/
def words (tool : Tool κ) : List String :=
  tool.subcommands.flatMap Subcommand.words ++ [helpWord]

end Tool

end PlotEmbedding.CommandLine
