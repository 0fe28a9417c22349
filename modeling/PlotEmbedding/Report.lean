import PlotEmbedding.Outcome
import PlotEmbedding.Request

/-!
# Reports

What an embedder says about its work while it is at it. A report is data; `Report.level` is its
weight, and `Report.message` its wording.
-/

namespace PlotEmbedding

/-- The weight of a report. -/
inductive Level where
  | trace
  | debug
  | warn
  deriving DecidableEq, Repr

/-- The name of a level. -/
def Level.name : Level → String
  | trace => "TRACE"
  | debug => "DEBUG"
  | warn => "WARN"

/-- Something that an embedder has to say. -/
inductive Report where
  /-- An installed embedder was asked to install again. -/
  | alreadyInstalled (host : Handle) (hook : Hook)
  /-- The host to install with is no window. -/
  | invalidHost (host : Handle)
  /-- The embedder was installed. -/
  | installed (host : Handle) (hook : Hook) (plotClass : String)
  /-- The hook could not be registered. -/
  | registrationFailed (failure : Failure)
  /-- The hook could not be released. -/
  | removalFailed (hook : Hook) (failure : Failure)
  /-- The embedder was uninstalled. -/
  | uninstalled (host : Handle) (hook : Hook)
  /-- An activation was dealt with. -/
  | activation (wparam : UInt64) (outcome : ActivationOutcome)
  /-- The class of an activated window could not be read. -/
  | classUnknown (win : Handle) (failure : Failure)
  /-- A step of embedding failed and was skipped. -/
  | stepFailed (step : Mutation) (failure : Failure)
  /-- The client area of the host could not be read. -/
  | areaUnknown (host : Handle) (failure : Failure)
  /-- A window was embedded. -/
  | embedded (win host : Handle) (size : Size)
  deriving DecidableEq, Repr

namespace Report

/-- The weight of each report: what a caller loses is a warning, what is skipped or done is for
debugging, and each activation is for tracing. -/
def level : Report → Level
  | registrationFailed _ => .warn
  | removalFailed _ _ => .warn
  | activation _ _ => .trace
  | _ => .debug

/-- A hook as its number in decimal. -/
def hookText (hook : Hook) : String := hook.number.repr

/-- The wording of a report. -/
def message : Report → String
  | alreadyInstalled host hook =>
    "install: already installed, host: " ++ host.text ++ ", hook: " ++ hookText hook
  | invalidHost host => "install: invalid host: " ++ host.text
  | installed host hook plotClass =>
    "install: host: " ++ host.text ++ ", hook: " ++ hookText hook ++ ", class: " ++ plotClass
  | registrationFailed failure =>
    "install: activation hook registration failed: " ++ failure.message
  | removalFailed hook failure =>
    "uninstall: hook: " ++ hookText hook ++ ", " ++ failure.message
  | uninstalled host hook =>
    "uninstall: host: " ++ host.text ++ ", hook: " ++ hookText hook
  | activation wparam outcome =>
    "on_activating: win: " ++ Text.hexText 0 wparam.toNat ++ ", outcome: " ++ outcome.text
  | classUnknown win failure => "process: win: " ++ win.text ++ ", " ++ failure.message
  | stepFailed step failure => "embed: " ++ step.kind.name ++ " failed: " ++ failure.message
  | areaUnknown host failure => "embed: host: " ++ host.text ++ ", " ++ failure.message
  | embedded win host size =>
    "embed: win: " ++ win.text ++ ", host: " ++ host.text ++
      ", w: " ++ size.width.toInt.repr ++ ", h: " ++ size.height.toInt.repr

end Report

end PlotEmbedding
