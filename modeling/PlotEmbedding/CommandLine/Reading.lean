import PlotEmbedding.CommandLine.Matches
import PlotEmbedding.CommandLine.Word

/-!
# Reading a command line

The words of a command line are read from left to right. The words for the tool itself come first,
and the first word that stands for a subcommand hands the rest over to it. `help` is different: the
words behind it name the command that help is wanted for. Behind the end of the options no word
stands for a subcommand any more.
-/

namespace PlotEmbedding.CommandLine

namespace Subcommand

variable {κ : Type}

/-- Ends the reading of a subcommand: its argument has to be there. -/
def conclude (s : Subcommand κ) (m : Matches) : Except Stop Matches := do
  let m ← m.settle
  match s.argument, texts m.items with
  | some argument, [] => .error (.usage (.missingArgument argument))
  | _, _ => .ok m

/-- Reads plain words, behind the end of the options. -/
def readPlain (s : Subcommand κ) : List String → Matches → Except Stop Matches
  | [], m => s.conclude m
  | word :: rest, m => do
    let m ← m.takeArgument s.argument word
    s.readPlain rest m

/-- Reads the words of a subcommand. -/
def read (s : Subcommand κ) : List String → Matches → Except Stop Matches
  | [], m => s.conclude m
  | word :: rest, m =>
    match Word.ofText word with
    | .escape => s.readPlain rest m
    | .long name value => do
      let m ← m.takeLong s.options name value
      s.read rest m
    | .cluster flags => do
      let m ← m.takeCluster s.options flags
      s.read rest m
    | .plain => do
      let m ← m.takePlain s.argument word
      s.read rest m

end Subcommand

/-- What a command line comes to. -/
inductive Reading (κ : Type) where
  /-- A subcommand is called, with what was read for the tool and for the subcommand. -/
  | run (s : Subcommand κ) (outer inner : Matches)
  /-- The help page of the tool is to be shown. -/
  | toolHelp
  /-- The help page of a subcommand is to be shown. -/
  | help (subcommand : Subcommand κ)
  /-- The help page of the help command is to be shown. -/
  | helpHelp
  /-- The version is to be shown. -/
  | version
  /-- Nothing was given. -/
  | nothing
  /-- Something is wrong. -/
  | usage (error : UsageError)
  deriving Repr

namespace Tool

variable {κ : Type}

/-- Reads the words behind the help command, which name the command that help is wanted for. -/
def readHelp (tool : Tool κ) : List String → Reading κ
  | [] => .toolHelp
  | word :: rest =>
    if tool.knows word then
      match rest with
      | [] => (tool.find? word).elim .helpHelp .help
      | next :: _ => .usage (.unrecognizedSubcommand next)
    else .usage (.unrecognizedSubcommand word)

/-- Ends the reading of a tool that got no subcommand. -/
def conclude (tool : Tool κ) (m : Matches) : Reading κ :=
  if m.items.isEmpty then .nothing else .usage (.missingSubcommand tool.name tool.words)

/-- Reads words behind the end of the options, where subcommands are not known any more. -/
def readPlain (tool : Tool κ) : List String → Matches → Reading κ
  | [], m => tool.conclude m
  | word :: _, _ =>
    if tool.knows word then .usage (.unexpectedArgument word)
    else .usage (.unrecognizedSubcommand word)

/-- Reads the words of a subcommand that has been found. -/
def readSubcommand (s : Subcommand κ) (m : Matches) (rest : List String) : Reading κ :=
  match s.read rest {} with
  | .ok n => .run s m n
  | .error .help => .help s
  | .error .version => .version
  | .error (.usage error) => .usage error

/-- Takes in a word as options of the tool. There is nothing to take in at the end of the options.
-/
def takeWord (tool : Tool κ) (m : Matches) (word : String) : Except Stop (Option Matches) :=
  match Word.ofText word with
  | .escape => .ok none
  | .long name value => (m.takeLong tool.options name value).map some
  | .cluster flags => (m.takeCluster tool.options flags).map some
  | .plain => .error (.usage (.unrecognizedSubcommand word))

/-- Reads the words of a tool, onto what was read before. -/
def readOnto (tool : Tool κ) : List String → Matches → Reading κ
  | [], m => tool.conclude m
  | word :: rest, m =>
    if word = helpWord then tool.readHelp rest
    else
      match tool.find? word with
      | some s => readSubcommand s m rest
      | none =>
        match tool.takeWord m word with
        | .ok (some m) => tool.readOnto rest m
        | .ok none => tool.readPlain rest m
        | .error .help => .toolHelp
        | .error .version => .version
        | .error (.usage error) => .usage error

/-- Reads a command line. -/
def read (tool : Tool κ) (words : List String) : Reading κ := tool.readOnto words {}

end Tool

end PlotEmbedding.CommandLine
