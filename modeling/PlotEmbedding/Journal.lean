import PlotEmbedding.Desktop

/-!
# Journals

The call tree of what happened, written down as one list in the order of events. A request is
entered when it is made. A step that the desktop runs meanwhile is announced before its own
entries, and its result follows them, unless the step unwound: then nothing follows.
-/

namespace PlotEmbedding

/-- The kind of a step. -/
inductive StepKind where
  | process
  | activating
  | look
  | parentOf
  | window
  | destroy
  | fault
  | heal
  | trigger
  | chain
  deriving DecidableEq, Repr

/-- The kind of a change. -/
def Change.kind : Change → StepKind
  | window _ _ => .window
  | destroy _ => .destroy
  | fault _ _ => .fault
  | heal _ => .heal
  | chain _ => .chain

/-- What a command or a step results in. -/
inductive Result where
  /-- There is nothing to tell. -/
  | nothing
  /-- How an install request went. -/
  | install (result : Except Failure InstallOutcome)
  /-- Was there anything to uninstall? -/
  | uninstalled (any : Bool)
  /-- How an event was dealt with. -/
  | outcome (outcome : ActivationOutcome)
  /-- What the hook chain returned. -/
  | chain (result : Int64)
  /-- The state of an embedder. -/
  | embedder (embedder : Embedder)
  /-- The parent of a window, if there is such a window. -/
  | parent (parent : Option (Option Handle))

/-- One entry of a journal. -/
inductive Entry where
  /-- A request is made. -/
  | call (request : Request)
  /-- An embedder makes a report. -/
  | report (line : Report)
  /-- The desktop runs a step. -/
  | nested (kind : StepKind)
  /-- The step that runs has a result. -/
  | result (result : Result)

/-- The entry for the end of a step, if it returned. -/
def Ending.entries {α : Type} (result : α → Result) : Ending α → List Entry
  | returned a => [.result (result a)]
  | unwound _ => []

/-- The entries for a step of the desktop on its own. -/
def Note.entries : Note → List Entry
  | changed change => [.nested change.kind, .result .nothing]
  | planted _ => [.nested .trigger, .result .nothing]
  | parentOf _ parent => [.nested .parentOf, .result (.parent parent)]

variable {ι : Type}

mutual

/-- The entries for one thing that an embedder did. -/
def Act.entries : Act ι Note → List Entry
  | .report line => [.report line]
  | .call request visits _ => .call request :: Visit.journal visits

/-- The entries for what an embedder did. -/
def Act.journal : List (Act ι Note) → List Entry
  | [] => []
  | act :: rest => act.entries ++ Act.journal rest

/-- The entries for one step that the desktop ran. -/
def Visit.entries : Visit ι Note → List Entry
  | .process _ _ acts ending =>
    .nested .process :: (Act.journal acts ++ ending.entries .outcome)
  | .activating _ _ handling _ handingOn ending =>
    .nested .activating ::
      (Act.journal handling ++ (Act.journal handingOn ++ ending.entries .chain))
  | .look _ embedder => [.nested .look, .result (.embedder embedder)]
  | .note n => n.entries

/-- The entries for the steps that the desktop ran. -/
def Visit.journal : List (Visit ι Note) → List Entry
  | [] => []
  | visit :: rest => visit.entries ++ Visit.journal rest

end

/-- The entries for what embedders did in the course of a visit. -/
def Visit.own : Visit ι Note → List Entry
  | .process _ _ acts _ => Act.journal acts
  | .activating _ _ handling _ handingOn _ => Act.journal handling ++ Act.journal handingOn
  | .look _ _ => []
  | .note _ => []

/-- The result of a visit. -/
def Visit.result : Visit ι Note → Ending Result
  | .process _ _ _ ending => ending.map .outcome
  | .activating _ _ _ _ _ ending => ending.map .chain
  | .look _ embedder => .returned (.embedder embedder)
  | .note (.parentOf _ parent) => .returned (.parent parent)
  | .note _ => .returned .nothing

namespace Record

/-- The entries for an operation. -/
def journal : Record ι Note → List Entry
  | create _ _ acts _ => Act.journal acts
  | install _ _ acts _ => Act.journal acts
  | uninstall _ acts _ => Act.journal acts
  | drop _ acts _ => Act.journal acts
  | visit v => v.own

/-- The result of an operation. -/
def result : Record ι Note → Ending Result
  | create _ _ _ ending => ending.map fun _ => .nothing
  | install _ _ _ ending => ending.map .install
  | uninstall _ _ ending => ending.map .uninstalled
  | drop _ _ ending => ending.map fun _ => .nothing
  | visit v => v.result

end Record

end PlotEmbedding
