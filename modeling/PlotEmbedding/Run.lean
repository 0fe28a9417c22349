import PlotEmbedding.Platform

/-!
# Runs against a platform

How the programs of embedders run against a platform that may call back. A run yields what was
done, in order and as a tree, how it ended, and the world afterwards, which is there also when the
run unwound.

Callbacks may nest. Every function here takes what a callback does as an argument, and
`Platform.visit` ties the knot by recursion on a bound for the depth of nesting. A run that needs
more depth than it was given has no result.
-/

namespace PlotEmbedding

variable {ι ν σ α τ : Type}

/-- A finished run: what was done, how it ended, and the world afterwards. -/
structure Run (ι σ τ α : Type) where
  trace : List τ
  ending : Ending α
  world : World ι σ

/-- Puts one more thing in front of what was done. -/
def Run.after (first : τ) (run : Run ι σ τ α) : Run ι σ τ α :=
  { run with trace := first :: run.trace }

/-- What callbacks do: the visit that takes place, what the platform learns of its end, and the
world afterwards. -/
abbrev Visitor (ι ν σ : Type) : Type :=
  Callback ι → World ι σ → Option (Visit ι ν × Ending Reply × World ι σ)

/-- Follows a reaction to its end. -/
def Reaction.follow (visitor : Visitor ι ν σ) :
    Reaction ι ν σ α → (ι → Embedder) → Option (Run ι σ (Visit ι ν) α)
  | .finish ending state, embedders => some ⟨[], ending, ⟨embedders, state⟩⟩
  | .look e rest, embedders =>
    (rest.follow visitor embedders).map (·.after (.look e (embedders e)))
  | .note n rest, embedders => (rest.follow visitor embedders).map (·.after (.note n))
  | .callback call state resume, embedders =>
    match visitor call ⟨embedders, state⟩ with
    | none => none
    | some (visit, reply, world) =>
      ((resume reply world.platform).follow visitor world.embedders).map (·.after visit)

/-- Runs a program to its end, with the platform's reaction to each request. -/
def Program.run (platform : Platform ι ν σ) (visitor : Visitor ι ν σ) :
    Program α → World ι σ → Option (Run ι σ (Act ι ν) α)
  | .finish ending, world => some ⟨[], ending, world⟩
  | .report line rest, world => (rest.run platform visitor world).map (·.after (.report line))
  | .request r next, world =>
    match (platform.react r world.platform).follow visitor world.embedders with
    | none => none
    | some ⟨visits, .returned answer, world⟩ =>
      ((next answer).run platform visitor world).map
        (·.after (.call r visits (.returned answer)))
    | some ⟨visits, .unwound panic, world⟩ =>
      some ⟨[.call r visits (.unwound panic)], .unwound panic, world⟩

namespace Platform

variable [DecidableEq ι]

/-- An embedder handles an event. The activation of a window is refused while the embedder deals
with another one; otherwise its flag is set for as long as it responds, however that ends. -/
def process (platform : Platform ι ν σ) (visitor : Visitor ι ν σ) (e : ι) (event : Event)
    (world : World ι σ) : Option (Run ι σ (Act ι ν) ActivationOutcome) :=
  match event.activating? with
  | none => some ⟨[], .returned .notActivation, world⟩
  | some win =>
    if (world.embedders e).processing then some ⟨[], .returned .reentrant, world⟩
    else
      (((world.embedders e).respond win).run platform visitor (world.setProcessing e true)).map
        fun run => { run with world := run.world.setProcessing e false }

/-- An embedder handles an event and then hands it on, unless the handling unwound. -/
def activating (platform : Platform ι ν σ) (visitor : Visitor ι ν σ) (e : ι) (event : Event)
    (world : World ι σ) : Option (Visit ι ν × Ending Int64 × World ι σ) :=
  match platform.process visitor e event world with
  | none => none
  | some ⟨handling, .unwound panic, world⟩ =>
    some (.activating e event handling (.unwound panic) [] (.unwound panic), .unwound panic, world)
  | some ⟨handling, .returned outcome, world⟩ =>
    (((world.embedders e).handOn event outcome).run platform visitor world).map fun run =>
      (.activating e event handling (.returned outcome) run.trace run.ending, run.ending, run.world)

/-- What a callback does when callbacks nest at most `depth` deep. -/
def visit (platform : Platform ι ν σ) : (depth : Nat) → Visitor ι ν σ
  | 0, _, _ => none
  | depth + 1, .process e event, world =>
    (platform.process (platform.visit depth) e event world).map fun run =>
      (.process e event run.trace run.ending, run.ending.map .outcome, run.world)
  | depth + 1, .activating e event, world =>
    (platform.activating (platform.visit depth) e event world).map fun (visit, ending, world) =>
      (visit, ending.map .chain, world)

end Platform

end PlotEmbedding
