import PlotEmbedding.Desktop.Settling
import PlotEmbedding.Journal

/-!
# Sessions

A session is a list of commands on one desktop that starts empty. Each command has an account: its
result, the journal of what happened, and the state in which it left the embedder that it names. The
embedders that are left at the end are dropped in the order of their creation.
-/

namespace PlotEmbedding

variable {ι : Type}

/-- One command of a session. -/
inductive Command (ι : Type) where
  /-- Creates an embedder. -/
  | create (e : ι) (options : Options)
  /-- Installs an embedder with a host. -/
  | install (e : ι) (host : Handle)
  /-- Uninstalls an embedder. -/
  | uninstall (e : ι)
  /-- Drops an embedder, whose name is free from then on. -/
  | drop (e : ι)
  /-- Runs a step from outside. -/
  | step (step : Step ι)

/-- The embedder that a step is about. -/
def Step.embedder? : Step ι → Option ι
  | process e _ => some e
  | activating e _ => some e
  | look e => some e
  | parentOf _ => none
  | change _ => none
  | trigger _ _ => none

/-- The embedder that a command is about. -/
def Command.embedder? : Command ι → Option ι
  | create e _ => some e
  | install e _ => some e
  | uninstall e => some e
  | drop e => some e
  | step s => s.embedder?

/-- What is told about one command. -/
structure Account where
  result : Ending Result
  journal : List Entry
  /-- The embedder that the command names, if it lives on. -/
  embedder : Option Embedder

/-- The account without what embedders reported. -/
def Account.withoutReports (account : Account) : Account :=
  { account with journal := account.journal.filter fun
      | .report _ => false
      | _ => true }

/-- The state of a session: the world, and the names of the living embedders from the oldest to the
youngest. -/
structure Session (ι : Type) where
  world : World ι (Desktop ι)
  living : List ι

namespace Session

/-- The session at its start: an empty desktop and no embedder. -/
def start : Session ι := ⟨⟨fun _ => .new {}, {}⟩, []⟩

variable [DecidableEq ι]

/-- Performs an operation on the world of a session. -/
def operate (session : Session ι) (operation : Operation ι) (living : List ι) :
    (Ending Result × List Entry) × Session ι :=
  let (record, world) := Desktop.operate operation session.world
  ((record.result, record.journal), ⟨world, living⟩)

/-- Changes the desktop of a session from outside. -/
def onDesktop (session : Session ι) (change : Desktop ι → Desktop ι) :
    (Ending Result × List Entry) × Session ι :=
  ((.returned .nothing, []),
    { session with world := { session.world with platform := change session.world.platform } })

/-- The result and the journal of a command, and the session after it. -/
def execute (session : Session ι) : Command ι → (Ending Result × List Entry) × Session ι
  | .create e options =>
    session.operate (.create e options) (session.living.filter (· ≠ e) ++ [e])
  | .install e host => session.operate (.install e host) session.living
  | .uninstall e => session.operate (.uninstall e) session.living
  | .drop e => session.operate (.drop e) (session.living.filter (· ≠ e))
  | .step (.process e event) => session.operate (.process e event) session.living
  | .step (.activating e event) => session.operate (.activating e event) session.living
  | .step (.look e) => ((.returned (.embedder (session.world.embedders e)), []), session)
  | .step (.parentOf win) =>
    ((.returned (.parent (session.world.platform.parentOf win)), []), session)
  | .step (.change change) => session.onDesktop (·.apply change)
  | .step (.trigger on steps) => session.onDesktop (·.plant on steps)

/-- The account of a command, and the session after it. -/
def perform (session : Session ι) (command : Command ι) : Account × Session ι :=
  let ((result, journal), after) := session.execute command
  let named := command.embedder?.filter (after.living.contains ·)
  (⟨result, journal, named.map after.world.embedders⟩, after)

/-- The accounts of commands performed one after the other, and the session after them. -/
def performAll (session : Session ι) : List (Command ι) → List Account × Session ι
  | [] => ([], session)
  | command :: rest =>
    let (account, session) := session.perform command
    let (accounts, session) := session.performAll rest
    (account :: accounts, session)

/-- The accounts of a whole session: of the commands, and then of the dropping of the embedders
that are left. -/
def run (commands : List (Command ι)) : List Account :=
  let (accounts, session) := start.performAll commands
  accounts ++ (session.performAll (session.living.map .drop)).1

end Session

end PlotEmbedding
