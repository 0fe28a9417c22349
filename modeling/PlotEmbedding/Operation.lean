import PlotEmbedding.Run

/-!
# Operations

What the owner of embedders can do with them: create, install, uninstall and drop them, and let
them handle events. `Platform.operate` performs one operation and keeps a record of it. An
operation that unwinds leaves a world behind as well: an install that unwinds leaves the embedder
as it was, and an uninstall takes the installation away before the platform is asked to release the
hook, so that the hook is never released twice. Whatever a name stood for is dropped when it is
given to a new embedder.
-/

namespace PlotEmbedding

/-- Something that the owner of embedders does. -/
inductive Operation (ι : Type) where
  /-- Gives the name to a new embedder. -/
  | create (e : ι) (options : Options)
  /-- Installs the embedder with a host. -/
  | install (e : ι) (host : Handle)
  /-- Uninstalls the embedder. -/
  | uninstall (e : ι)
  /-- Uninstalls the embedder and frees its name. -/
  | drop (e : ι)
  /-- Lets the embedder handle an event. -/
  | process (e : ι) (event : Event)
  /-- Lets the embedder handle an event and hand it on. -/
  | activating (e : ι) (event : Event)
  deriving DecidableEq, Repr

/-- What became of an operation. -/
inductive Record (ι ν : Type) where
  | create (e : ι) (options : Options) (acts : List (Act ι ν)) (ending : Ending Unit)
  | install (e : ι) (host : Handle) (acts : List (Act ι ν))
      (ending : Ending (Except Failure InstallOutcome))
  | uninstall (e : ι) (acts : List (Act ι ν)) (ending : Ending Bool)
  | drop (e : ι) (acts : List (Act ι ν)) (ending : Ending Unit)
  | visit (visit : Visit ι ν)

namespace Platform

variable {ι ν σ : Type} [DecidableEq ι]

/-- Ends the installation of an embedder, which counts as uninstalled from the start. -/
def uninstall (platform : Platform ι ν σ) (visitor : Visitor ι ν σ) (e : ι) (world : World ι σ) :
    Option (Run ι σ (Act ι ν) Bool) :=
  (world.embedders e).uninstall.run platform visitor
    (world.set e { world.embedders e with installation := none })

/-- Performs one operation when callbacks nest at most `depth` deep. -/
def operate (platform : Platform ι ν σ) (depth : Nat) :
    Operation ι → World ι σ → Option (Record ι ν × World ι σ)
  | .create e options, world =>
    (platform.uninstall (platform.visit depth) e world).map fun run =>
      (.create e options run.trace (run.ending.map fun _ => ()), run.world.set e (.new options))
  | .install e host, world =>
    (((world.embedders e).install host).run platform (platform.visit depth) world).map fun run =>
      match run.ending with
      | .returned (result, embedder) =>
        (.install e host run.trace (.returned result), run.world.set e embedder)
      | .unwound panic => (.install e host run.trace (.unwound panic), run.world)
  | .uninstall e, world =>
    (platform.uninstall (platform.visit depth) e world).map fun run =>
      (.uninstall e run.trace run.ending, run.world)
  | .drop e, world =>
    (platform.uninstall (platform.visit depth) e world).map fun run =>
      (.drop e run.trace (run.ending.map fun _ => ()), run.world.set e (.new {}))
  | .process e event, world =>
    (platform.process (platform.visit depth) e event world).map fun run =>
      (.visit (.process e event run.trace run.ending), run.world)
  | .activating e event, world =>
    (platform.activating (platform.visit depth) e event world).map fun (visit, _, world) =>
      (.visit visit, world)

end Platform

end PlotEmbedding
