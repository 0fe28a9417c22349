import PlotEmbedding.Embedder

/-!
# Platforms that call back

While a request is pending, a platform may call back into the embedders that share it. A `Reaction`
is what the platform does with one request: it calls back, any number of times and with anything it
likes, and in the end it answers or panics. A platform keeps a state of its own, and gives for each
request and state a reaction.

Callbacks are the two calls that need no exclusive access to an embedder: handling an event, and
handling it and handing it on. A reaction may also look at an embedder, or leave a note of what the
platform did by itself; neither has an effect on what follows.
-/

namespace PlotEmbedding

/-- A call that the platform can make while a request is pending. Embedders go by names of type
`ι`. -/
inductive Callback (ι : Type) where
  /-- The embedder is to handle the event. -/
  | process (e : ι) (event : Event)
  /-- The embedder is to handle the event and to hand it on to the hook chain. -/
  | activating (e : ι) (event : Event)
  deriving DecidableEq, Repr

/-- The value that a callback returns to the platform. -/
inductive Reply where
  /-- How the event was dealt with. -/
  | outcome (outcome : ActivationOutcome)
  /-- What the rest of the hook chain returned. -/
  | chain (result : Int64)
  deriving DecidableEq, Repr

/-- What a platform with notes in `ν` and states in `σ` does with a request whose answer is in `α`.
-/
inductive Reaction (ι ν σ α : Type) where
  /-- The request ends, and the platform is in the given state. -/
  | finish (ending : Ending α) (state : σ)
  /-- The platform calls back, and goes on with how that ended and the state it is in then. -/
  | callback (call : Callback ι) (state : σ) (resume : Ending Reply → σ → Reaction ι ν σ α)
  /-- The platform looks at an embedder. -/
  | look (e : ι) (rest : Reaction ι ν σ α)
  /-- The platform notes what it did. -/
  | note (note : ν) (rest : Reaction ι ν σ α)

/-- A platform: its reaction to each request in each state. -/
structure Platform (ι ν σ : Type) where
  react : (request : Request) → σ → Reaction ι ν σ request.Answer

mutual

/-- One thing that an embedder does: it makes a report, or a request during which the platform may
do things of its own. -/
inductive Act (ι ν : Type) where
  /-- The embedder makes a report. -/
  | report (line : Report)
  /-- The embedder makes a request, during which the visits take place, and which ends so. -/
  | call (request : Request) (visits : List (Visit ι ν)) (ending : Ending request.Answer)

/-- One thing that a platform does while a request is pending. -/
inductive Visit (ι ν : Type) where
  /-- An embedder handles an event. -/
  | process (e : ι) (event : Event) (acts : List (Act ι ν)) (ending : Ending ActivationOutcome)
  /-- An embedder handles an event, and then reports and hands it on. -/
  | activating (e : ι) (event : Event) (handling : List (Act ι ν))
      (outcome : Ending ActivationOutcome) (handingOn : List (Act ι ν)) (ending : Ending Int64)
  /-- The platform looks at an embedder. -/
  | look (e : ι) (embedder : Embedder)
  /-- The platform notes what it did. -/
  | note (note : ν)

end

/-- All embedders, by name, and the state of the platform that they share. A name that is not in use
stands for an embedder with default options that is not installed. -/
structure World (ι σ : Type) where
  embedders : ι → Embedder
  platform : σ

namespace World

variable {ι σ : Type} [DecidableEq ι]

/-- Replaces the state of one embedder. -/
def set (w : World ι σ) (e : ι) (embedder : Embedder) : World ι σ :=
  { w with embedders := fun name => if name = e then embedder else w.embedders name }

/-- Sets or clears the flag of one embedder. -/
def setProcessing (w : World ι σ) (e : ι) (processing : Bool) : World ι σ :=
  w.set e { w.embedders e with processing }

end World

end PlotEmbedding
