import PlotEmbedding.Options
import PlotEmbedding.Program

/-!
# Embedders

An embedder watches the activations of windows and moves plot windows into the host that it is
installed with. Its state is its options, its installation, and the flag that says that it is
dealing with an activation right now. Host and hook only ever exist together.

Each operation is a program. `Embedder.embed` turns a window into a child of the host that fills
the host's client area, and skips what fails. `Embedder.respond` decides whether an activated
window is to be embedded, and `Embedder.handOn` passes the event on. `Embedder.install` and
`Installation.release` bring an installation about and end it.
-/

namespace PlotEmbedding

open Program

/-- A host window together with the hook that watches for its plots. -/
structure Installation where
  host : Handle
  hook : Hook
  deriving DecidableEq, Repr

/-- The state of an embedder. -/
structure Embedder where
  options : Options := {}
  installation : Option Installation := none
  /-- An activation is being dealt with. -/
  processing : Bool := false
  deriving DecidableEq, Repr

/-- Ends an installation: the hook is released, and a failure of that is reported only. -/
def Installation.release (installation : Installation) : Program Unit := do
  match ← ask (.removeHook installation.hook) with
  | .ok () => pure ()
  | .error failure => say (.removalFailed installation.hook failure)
  say (.uninstalled installation.host installation.hook)

namespace Embedder

/-- An embedder that is not installed. -/
def new (options : Options) : Embedder := { options }

/-- The host that the embedder is installed with. -/
def host? (e : Embedder) : Option Handle := e.installation.map Installation.host

/-- The hook that the embedder is installed with. -/
def hook? (e : Embedder) : Option Hook := e.installation.map Installation.hook

/-- Turns the window into a child of the host that fills the host's client area, and tells the host.
Each change is tried whatever became of the ones before. -/
def embed (options : Options) (host win : Handle) : Program ActivationOutcome := do
  attempt (.setStyle win childWindowStyle)
  attempt (.setExStyle win noExtendedStyle)
  attempt (.removeMenu win)
  attempt (.clearTitle win)
  attempt (.setParent win host)
  let size ← hostSize host
  attempt (.place win 0 0 size)
  attempt (.postMessage host options.message)
  say (.embedded win host size)
  return .embedded size

/-- Deals with the activation of a window: a window of the configured class is embedded unless it is
known to be a child of the host already. -/
def respond (e : Embedder) (win : Handle) : Program ActivationOutcome :=
  match e.installation with
  | none => return .inactive
  | some installation => do
    if ← bearsClass e.options.plotClass win then
      if ← isChild installation.host win then return .alreadyEmbedded
      else embed e.options installation.host win
    else return .classMismatch

/-- Hands an event on to the rest of the hook chain after it has been handled, and returns what the
chain does. Every outcome but the one that there was nothing to handle is reported first. -/
def handOn (e : Embedder) (event : Event) (outcome : ActivationOutcome) : Program Int64 := do
  if outcome ≠ .notActivation then say (.activation event.wparam outcome)
  ask (.forward e.hook? event)

/-- Registers the hook for a host, and returns the result with the embedder as it is afterwards. A
failed registration is an error for a strict embedder and an outcome for any other. -/
def register (e : Embedder) (host : Handle) :
    Program (Except Failure InstallOutcome × Embedder) := do
  match ← ask .installHook with
  | .ok hook =>
    say (.installed host hook e.options.plotClass)
    return (.ok .installed, { e with installation := some ⟨host, hook⟩ })
  | .error failure =>
    if e.options.strict then return (.error (.embedding (.hookRegistration failure.message)), e)
    else
      say (.registrationFailed failure)
      return (.ok .registrationFailed, e)

/-- Installs the embedder with a host, and returns the result with the embedder as it is
afterwards. -/
def install (e : Embedder) (host : Handle) : Program (Except Failure InstallOutcome × Embedder) :=
  match e.installation with
  | some installation => do
    say (.alreadyInstalled installation.host installation.hook)
    return (.ok .alreadyInstalled, e)
  | none => do
    if ← isHost host then e.register host
    else
      say (.invalidHost host)
      return (.ok .invalidHost, e)

/-- Uninstalls the embedder, and returns whether there was anything to end. -/
def uninstall (e : Embedder) : Program Bool :=
  match e.installation with
  | some installation => do
    installation.release
    return true
  | none => return false

end Embedder

end PlotEmbedding
