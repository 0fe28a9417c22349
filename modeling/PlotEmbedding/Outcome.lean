import PlotEmbedding.Area

/-!
# Outcomes

What an install request and what an activation event ended up doing, with their texts.
-/

namespace PlotEmbedding

/-- What became of a request to install an embedder. -/
inductive InstallOutcome where
  /-- The embedder is installed from now on. -/
  | installed
  /-- The embedder was installed before. -/
  | alreadyInstalled
  /-- There is no such host window. -/
  | invalidHost
  /-- The hook could not be registered. -/
  | registrationFailed
  deriving DecidableEq, Repr

/-- The text of an install outcome. -/
def InstallOutcome.text : InstallOutcome → String
  | installed => "installed"
  | alreadyInstalled => "alreadyinstalled"
  | invalidHost => "invalidhost"
  | registrationFailed => "registrationfailed"

/-- How an embedder dealt with one event. -/
inductive ActivationOutcome where
  /-- The event is not about an activation. -/
  | notActivation
  /-- The embedder was dealing with another activation. -/
  | reentrant
  /-- The embedder is not installed. -/
  | inactive
  /-- The window is not of the configured class, as far as is known. -/
  | classMismatch
  /-- The window is a child of the host already. -/
  | alreadyEmbedded
  /-- The window was embedded at this size. -/
  | embedded (size : Size)
  deriving DecidableEq, Repr

/-- A size as the width and the height in decimal with a cross between them. -/
def Size.text (size : Size) : String :=
  size.width.toInt.repr ++ "x" ++ size.height.toInt.repr

/-- The text of an activation outcome. -/
def ActivationOutcome.text : ActivationOutcome → String
  | notActivation => "notactivation"
  | reentrant => "reentrant"
  | inactive => "inactive"
  | classMismatch => "classmismatch"
  | alreadyEmbedded => "alreadyembedded"
  | embedded size => "embedded " ++ size.text

end PlotEmbedding
