import PlotEmbedding.CommandLine.Help
import PlotEmbedding.CommandLine.Reading
import PlotEmbedding.CommandLine.Toolkit

/-!
# The plain toolkit

A toolkit for output that is no terminal. It reads command lines as in `Tool.read`, writes down a
complaint in two lines, with nothing about where it came up, and leaves texts as they are.
-/

namespace PlotEmbedding.CommandLine

variable {κ : Type}

/-- The call that was read, or the answer to what is no call. -/
def Reading.call (tool : Tool κ) : Reading κ → Except Answer (Call κ)
  | run s outer inner => .ok (tool.call s outer.items inner.items)
  | toolHelp => .error { code := 0, stdout := tool.helpPage }
  | help s => .error { code := 0, stdout := tool.subcommandPage s }
  | helpHelp => .error { code := 0, stdout := tool.helpHelpPage }
  | version => .error { code := 0, stdout := tool.name ++ " " ++ tool.version ++ "\n" }
  | nothing => .error { code := 2, stderr := tool.helpPage }
  | usage error => .error { code := 2, stderr := "error: " ++ error.message ++ "\n" }

/-- The line of the context, and the line of the cause. -/
def Complaint.lines (complaint : Complaint) : String :=
  " error: witcher::Error: " ++ complaint.context ++
    "\n cause: libplothost::error::PlotHostError: " ++ complaint.cause.message

/-- The toolkit of the running tool. -/
def plainToolkit : Toolkit κ where
  read tool words := (tool.read words).call tool
  render complaint _ := complaint.lines
  highlight text := text

end PlotEmbedding.CommandLine
