import PlotEmbedding.CommandLine.Plain
import PlotEmbedding.Options
import PlotEmbedding.Outcome

/-!
# The tasks of the tool

The subcommands of the tool, the tasks that they call, and the answer to a command line: an exit
code and what is printed. There is no window system behind the tool, so the tasks that need one fail
whatever they are told, and only the constants can be shown. `Toolkit.answer` is the answer with any
toolkit, and `answer` the one of the running tool.
-/

namespace PlotEmbedding.CommandLine

/-- The kinds of task. -/
inductive TaskKind where
  | host
  | info
  | constants
  deriving DecidableEq, Repr

/-- The switch for more logging, which the tool and all its subcommands know. -/
def debugSwitch : Switch :=
  { name := "debug", short := some 'd', about := "Enable debug logging" }

/-- The switch for the help page. -/
def helpSwitch : Switch :=
  { name := "help", short := some 'h', effect := .help, about := "Print help" }

/-- The switch for the version. -/
def versionSwitch : Switch :=
  { name := "version", short := some 'V', effect := .version, about := "Print version" }

/-- The switch for a stand-in plot window. -/
def spawnPlotSwitch : Switch :=
  { name := "spawn-plot", about := "Create a stand-in plot window once the host is up" }

/-- The switch that makes a failed registration an error. -/
def strictSwitch : Switch :=
  { name := "strict", about := "Fail if the activation hook can't be registered" }

/-- The class of plot windows. -/
def classSetting : Setting :=
  { name := "class", valueName := "CLASS", default := defaultPlotClass,
    about := "Window class identifying a plot window" }

/-- The handle of the window to look at. -/
def handleArgument : Argument :=
  { name := "HWND", about := "Window handle in hex (0x...) or decimal" }

/-- The subcommand that runs a host window. -/
def hostCommand : Subcommand TaskKind :=
  { key := .host, name := "host", aliasName := some "h",
    about := "Open a host window and embed plot windows into it",
    options := [.setting classSetting, .switch debugSwitch, .switch spawnPlotSwitch,
      .switch strictSwitch, .switch helpSwitch] }

/-- The subcommand that shows a window. -/
def infoCommand : Subcommand TaskKind :=
  { key := .info, name := "info", aliasName := some "i",
    about := "Show how a window would be treated",
    options := [.setting classSetting, .switch debugSwitch, .switch helpSwitch],
    argument := some handleArgument }

/-- The subcommand that shows the constants. -/
def constantsCommand : Subcommand TaskKind :=
  { key := .constants, name := "constants", aliasName := some "c",
    about := "Show the embedding constants",
    options := [.switch debugSwitch, .switch helpSwitch] }

/-- The tool with its three subcommands. -/
def plotTool : Tool TaskKind :=
  { name := "plothost", version := "0.0.1",
    about := "Embed R plot windows into a host window by hooking window activation",
    switches := [debugSwitch, helpSwitch, versionSwitch],
    subcommands := [hostCommand, infoCommand, constantsCommand] }

/-! ## Answers -/

/-- The complaint about a task that needs a window system where there is none. -/
def noWindowSystem : Complaint :=
  { context := "plot windows can't be embedded here", cause := .unsupported }

/-- Runs a host window, whatever it is told about the class and the host. -/
def runHost (_ : Arguments) : Except Complaint String := .error noWindowSystem

/-- Shows a window, whatever handle and class it is told. -/
def showWindow (_ : Arguments) : Except Complaint String := .error noWindowSystem

/-- The constants of embedding, one a line. -/
def constantsPage (highlight : String → String) : String :=
  "Plot window class:   " ++ highlight defaultPlotClass ++ "\n" ++
  "Activated message:   " ++ highlight (Text.hexText 4 plotActivatedMessage.toNat) ++
    " (WM_USER + " ++ (plotActivatedMessage - privateMessageBase).toNat.repr ++ ")\n" ++
  "Fallback size:       " ++ highlight fallbackSize.text ++ "\n"

/-- Carries out the task that is called, and says what to print or what went wrong. -/
def perform (highlight : String → String) (call : Call TaskKind) : Except Complaint String :=
  match call.key with
  | .host => runHost call.subcommand
  | .info => showWindow call.subcommand
  | .constants => .ok (constantsPage highlight)

/-- The answer to a call. -/
def Toolkit.answerCall (kit : Toolkit TaskKind) (call : Call TaskKind) : Answer :=
  match perform kit.highlight call with
  | .ok output => { code := 0, stdout := output }
  | .error complaint => { code := 1, stderr := kit.render complaint call.key ++ "\n" }

/-- The answer to a command line, with what the toolkit makes of it. -/
def Toolkit.answer (kit : Toolkit TaskKind) (words : List String) : Answer :=
  match kit.read plotTool words with
  | .ok call => kit.answerCall call
  | .error answer => answer

/-- Reads the words of a command line and answers. -/
def answer (words : List String) : Answer := plainToolkit.answer words

end PlotEmbedding.CommandLine
