import PlotEmbedding.CommandLine.Grammar

/-!
# Help pages

A help page says what a command is about and how it is used, and then lists its commands, arguments
and options. Every list is a table of two columns, of which the first is as wide as its widest
entry.
-/

namespace PlotEmbedding.CommandLine

/-- Fills a text up with spaces at its end. -/
def padEnd (width : Nat) (s : String) : String :=
  s ++ String.ofList (List.replicate (width - s.length) ' ')

/-- A table of two columns, one line a row. -/
def table (rows : List (String × String)) : String :=
  let width := (rows.map (·.1.length)).foldl max 0
  String.join (rows.map fun (left, right) => "  " ++ padEnd width left ++ "  " ++ right ++ "\n")

/-- A titled table behind an empty line, or nothing if there are no rows. -/
def titled (title : String) (rows : List (String × String)) : String :=
  if rows.isEmpty then "" else "\n" ++ title ++ ":\n" ++ table rows

/-- The row of an option. -/
def Opt.row (option : Opt) : String × String :=
  let mark := match option.short? with
    | some flag => String.ofList ['-', flag, ',', ' ']
    | none => "    "
  let about := match option with
    | switch s => s.about
    | setting s => s.about ++ " [default: " ++ s.default ++ "]"
  (mark ++ option.text, about)

/-- The row of an argument. -/
def Argument.row (argument : Argument) : String × String :=
  ("<" ++ argument.name ++ ">", argument.about)

/-- The row of a subcommand. -/
def Subcommand.row {κ : Type} (s : Subcommand κ) : String × String :=
  let aliasText := match s.aliasName with
    | some word => " [alias: " ++ word ++ "]"
    | none => ""
  (s.name, s.about ++ aliasText)

/-- A page from what it is about, how it is used, and its sections. -/
def page (about usage : String) (sections : List String) : String :=
  about ++ "\n\nUsage: " ++ usage ++ "\n" ++ String.join sections

namespace Tool

variable {κ : Type}

/-- What the help command is about. -/
def helpAbout : String := "Print this message or the help of the given subcommand(s)"

/-- The help page of a tool. -/
def helpPage (tool : Tool κ) : String :=
  page tool.about (tool.name ++ " [OPTIONS] <COMMAND>")
    [titled "Commands" (tool.subcommands.map Subcommand.row ++ [(helpWord, helpAbout)]),
     titled "Options" (tool.options.map Opt.row)]

/-- The help page of a subcommand. -/
def subcommandPage (tool : Tool κ) (s : Subcommand κ) : String :=
  let arguments := s.argument.toList.map Argument.row
  let usage := String.join (arguments.map fun (argument, _) => " " ++ argument)
  page s.about (tool.name ++ " " ++ s.name ++ " [OPTIONS]" ++ usage)
    [titled "Arguments" arguments, titled "Options" (s.options.map Opt.row)]

/-- The help page of the help command. -/
def helpHelpPage (tool : Tool κ) : String :=
  page helpAbout (tool.name ++ " " ++ helpWord ++ " [COMMAND]...")
    [titled "Arguments" [("[COMMAND]...", "Print help for the subcommand(s)")]]

end Tool

end PlotEmbedding.CommandLine
