/-!
# Options

What a caller may choose about an embedder: the class of the windows to embed, the message that the
host gets, and whether a failed registration is an error. Choices are made one after the other, and
a later one replaces an earlier one of its kind.
-/

namespace PlotEmbedding

/-- The window class of plot windows. -/
def defaultPlotClass : String := "GraphApp"

/-- The base of the private range of window messages. -/
def privateMessageBase : UInt32 := 0x0400

/-- The message that tells a host about an embedded plot. -/
def plotActivatedMessage : UInt32 := privateMessageBase + 100

/-- How an embedder is to behave. -/
structure Options where
  /-- The class of the windows to embed, matched exactly. -/
  plotClass : String := defaultPlotClass
  /-- The message posted to the host after a plot was embedded. -/
  message : UInt32 := plotActivatedMessage
  /-- A failed registration of the hook is an error instead of an outcome. -/
  strict : Bool := false
  deriving DecidableEq, Repr

namespace Options

/-- One choice about an embedder. -/
inductive Choice where
  | plotClass (name : String)
  | message (code : UInt32)
  | strict (on : Bool)
  deriving DecidableEq, Repr

/-- The options once a choice has been made. -/
def choose (options : Options) : Choice → Options
  | .plotClass name => { options with plotClass := name }
  | .message code => { options with message := code }
  | .strict on => { options with strict := on }

/-- The default options changed by one choice after the other. -/
def ofChoices (choices : List Choice) : Options := choices.foldl choose {}

end Options

end PlotEmbedding
