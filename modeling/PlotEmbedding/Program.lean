import PlotEmbedding.Report

/-!
# Programs of an embedder

What an embedder does is a tree: it makes a report, or asks the platform and goes on with the
answer, until it ends. The tree says nothing about what the platform does meanwhile, so one program
runs against every platform, also against one that calls back before it answers.
-/

namespace PlotEmbedding

/-- A course of action of an embedder, with one continuation for every answer of the platform. -/
inductive Program (α : Type) where
  /-- The program ends. -/
  | finish (ending : Ending α)
  /-- A report is made, and the program goes on. -/
  | report (line : Report) (rest : Program α)
  /-- The platform is asked, and the program goes on with its answer. -/
  | request (request : Request) (next : request.Answer → Program α)

namespace Program

variable {α β : Type}

/-- Goes on with the value that a program returns. -/
def bind : Program α → (α → Program β) → Program β
  | finish (.returned a), f => f a
  | finish (.unwound panic), _ => finish (.unwound panic)
  | report line rest, f => report line (rest.bind f)
  | request r next, f => request r fun answer => (next answer).bind f

instance : Monad Program where
  pure a := finish (.returned a)
  bind := bind

/-- Asks the platform. -/
def ask (r : Request) : Program r.Answer := request r fun answer => finish (.returned answer)

/-- Makes a report. -/
def say (line : Report) : Program Unit := report line (finish (.returned ()))

/-- Tries a change of a window. A failure is reported, and the program goes on all the same. -/
def attempt (mutation : Mutation) : Program Unit := do
  match ← ask (.mutate mutation) with
  | .ok () => return ()
  | .error failure => say (.stepFailed mutation failure)

/-! ## Queries

What an embedder wants to know, and what it makes of a query that fails.
-/

/-- Does the window bear the class? A window whose class cannot be read does not, and the failure is
reported. -/
def bearsClass (plotClass : String) (win : Handle) : Program Bool := do
  match ← ask (.className win classNameCapacity) with
  | .ok name => return name == plotClass
  | .error failure =>
    say (.classUnknown win failure)
    return false

/-- Does the platform name the host as the window's parent? It does not if the query fails, of which
nothing is said. -/
def isChild (host win : Handle) : Program Bool := do
  match ← ask (.parent win) with
  | .ok parent => return parent == some host
  | .error _ => return false

/-- The size that fills the host. A host whose client area cannot be read has the fallback size, and
the failure is reported. -/
def hostSize (host : Handle) : Program Size := do
  match ← ask (.clientArea host) with
  | .ok area => finish area.fillSize
  | .error failure =>
    say (.areaUnknown host failure)
    return fallbackSize

/-- Can the window be a host? The null handle cannot, which takes no question. -/
def isHost (win : Handle) : Program Bool :=
  if win.isNull then return false else ask (.isWindow win)

end Program

end PlotEmbedding
