import Mathlib.Logic.Function.Basic
import PlotEmbedding.Desktop
import PlotEmbedding.Proofs.Conduct

/-!
# The call trees that arise

A call tree depends on the platform, which may do as it pleases, but not everything that can be
written down as a tree can come about. `Act.Arise` and `Visit.Arise` are the rules: a visit starts
from the state that its embedder is in at that moment, does what the programs of the embedder
allow, and finds the flag of that embedder set while it responds. The rules mention neither a
platform nor a bound on the nesting, so what holds of all trees that arise holds of all runs.

`Visitor.Orderly` says of what callbacks do that their trees arise and that every embedder is left
as it was. `Platform.orderly_visit` is the main result: it is so at every depth of nesting, however
a call ends. `Record.Arises` and `Platform.arises_operate` say the same of whole operations, with
the states of all embedders before and after.
-/

namespace PlotEmbedding

variable {ι ν σ α τ : Type} [DecidableEq ι]

/-- The states of all embedders, by name. -/
abbrev Roster (ι : Type) : Type := ι → Embedder

namespace Roster

/-- The states once an embedder has begun to respond. -/
def busy (roster : Roster ι) (e : ι) : Roster ι :=
  Function.update roster e { roster e with processing := true }

/-- The states once the installation of an embedder has been taken away. -/
def vacant (roster : Roster ι) (e : ι) : Roster ι :=
  Function.update roster e { roster e with installation := none }

/-- An embedder that begins to respond keeps its installation, and so do all others. -/
theorem installation_busy (roster : Roster ι) (e name : ι) :
    (roster.busy e name).installation = (roster name).installation := by
  by_cases own : name = e
  · subst own
    rw [busy, Function.update_self]
  · rw [busy, Function.update_of_ne own]

end Roster

namespace World

variable (w : World ι σ) (e : ι)

/-- Giving a name to another embedder changes what is under this name only. -/
@[simp] theorem embedders_set (embedder : Embedder) :
    (w.set e embedder).embedders = Function.update w.embedders e embedder := by
  funext name
  by_cases h : name = e
  · subst h
    simp [World.set]
  · simp [World.set, h]

@[simp] theorem embedders_setProcessing (processing : Bool) :
    (w.setProcessing e processing).embedders =
      Function.update w.embedders e { w.embedders e with processing } :=
  embedders_set w e _

/-- Setting a clear flag and clearing it again restores all embedders. -/
theorem embedders_setProcessing_of_busy {w' : World ι σ}
    (clear : (w.embedders e).processing = false)
    (h : w'.embedders = (w.setProcessing e true).embedders) :
    (w'.setProcessing e false).embedders = w.embedders := by
  rw [embedders_setProcessing, h, embedders_setProcessing, Function.update_self,
    Function.update_idem, ← clear, Function.update_eq_self]

end World

mutual

/-- The acts can come about, in this order, while the embedders are in these states. -/
inductive Act.Arise : Roster ι → List (Act ι ν) → Prop where
  /-- Nothing is done. -/
  | nil (roster : Roster ι) : Act.Arise roster []
  /-- A report is made. -/
  | report {roster : Roster ι} {line : Report} {rest : List (Act ι ν)} :
      Act.Arise roster rest → Act.Arise roster (.report line :: rest)
  /-- A request is made, during which visits take place. -/
  | call {roster : Roster ι} {request : Request} {visits : List (Visit ι ν)}
      {ending : Ending request.Answer} {rest : List (Act ι ν)} :
      Visit.Arise roster visits → Act.Arise roster rest →
      Act.Arise roster (.call request visits ending :: rest)

/-- The visits can come about, in this order, while the embedders are in these states. -/
inductive Visit.Arise : Roster ι → List (Visit ι ν) → Prop where
  /-- There are no visits. -/
  | nil (roster : Roster ι) : Visit.Arise roster []
  /-- An embedder handles an event. -/
  | process {roster : Roster ι} {e : ι} {event : Event} {acts : List (Act ι ν)}
      {ending : Ending ActivationOutcome} {rest : List (Visit ι ν)} :
      (roster e).Handles event acts ending → Act.Arise (roster.busy e) acts →
      Visit.Arise roster rest →
      Visit.Arise roster (.process e event acts ending :: rest)
  /-- An embedder handles an event and hands it on. -/
  | activating {roster : Roster ι} {e : ι} {event : Event} {handling : List (Act ι ν)}
      {outcome : Ending ActivationOutcome} {handingOn : List (Act ι ν)} {ending : Ending Int64}
      {rest : List (Visit ι ν)} :
      (roster e).Handles event handling outcome → Act.Arise (roster.busy e) handling →
      (roster e).HandsOn event outcome handingOn ending → Act.Arise roster handingOn →
      Visit.Arise roster rest →
      Visit.Arise roster (.activating e event handling outcome handingOn ending :: rest)
  /-- The platform looks at an embedder. -/
  | look {roster : Roster ι} {e : ι} {rest : List (Visit ι ν)} :
      Visit.Arise roster rest → Visit.Arise roster (.look e (roster e) :: rest)
  /-- The platform notes what it did. -/
  | note {roster : Roster ι} {n : ν} {rest : List (Visit ι ν)} :
      Visit.Arise roster rest → Visit.Arise roster (.note n :: rest)

end

/-- Visits come about one after the other. -/
theorem Visit.arise_cons {roster : Roster ι} {visit : Visit ι ν} {rest : List (Visit ι ν)} :
    Visit.Arise roster (visit :: rest) ↔ Visit.Arise roster [visit] ∧ Visit.Arise roster rest := by
  constructor
  · intro h
    cases h with
    | process handles acts later => exact ⟨.process handles acts (.nil _), later⟩
    | activating handles handling handsOn handingOn later =>
      exact ⟨.activating handles handling handsOn handingOn (.nil _), later⟩
    | look later => exact ⟨.look (.nil _), later⟩
    | note later => exact ⟨.note (.nil _), later⟩
  · rintro ⟨first, later⟩
    cases first with
    | process handles acts _ => exact .process handles acts later
    | activating handles handling handsOn handingOn _ =>
      exact .activating handles handling handsOn handingOn later
    | look _ => exact .look later
    | note _ => exact .note later

/-! ## What one run leaves behind -/

/-- What callbacks do comes about by the rules, and leaves every embedder as it was. -/
def Visitor.Orderly (visitor : Visitor ι ν σ) : Prop :=
  ∀ ⦃call world visit reply world'⦄, visitor call world = some (visit, reply, world') →
    Visit.Arise world.embedders [visit] ∧ world'.embedders = world.embedders

section Orderly

variable {platform : Platform ι ν σ} {visitor : Visitor ι ν σ} (hv : Visitor.Orderly visitor)
include hv

/-- While a request is pending, all that happens is visits that leave every embedder as it was. -/
theorem arise_follow (reaction : Reaction ι ν σ α) {embedders : Roster ι}
    {run : Run ι σ (Visit ι ν) α} (h : reaction.follow visitor embedders = some run) :
    Visit.Arise embedders run.trace ∧ run.world.embedders = embedders := by
  induction reaction generalizing embedders run with
  | finish ending state =>
    cases h
    exact ⟨.nil _, rfl⟩
  | look e rest ih =>
    obtain ⟨later, hlater, rfl⟩ := Option.map_eq_some_iff.mp h
    exact ⟨.look (ih hlater).1, (ih hlater).2⟩
  | note n rest ih =>
    obtain ⟨later, hlater, rfl⟩ := Option.map_eq_some_iff.mp h
    exact ⟨.note (ih hlater).1, (ih hlater).2⟩
  | callback call state resume ih =>
    rw [Reaction.follow] at h
    split at h
    · exact nomatch h
    · next visit reply world visited =>
      obtain ⟨later, hlater, rfl⟩ := Option.map_eq_some_iff.mp h
      -- The visit has left the embedders alone, so what follows starts from the same states.
      obtain ⟨arises, same⟩ := hv visited
      have rest := ih reply world.platform hlater
      rw [same] at rest
      exact ⟨Visit.arise_cons.mpr ⟨arises, rest.1⟩, rest.2⟩

/-- A program does what it allows, by the rules, and leaves every embedder as it was. -/
theorem arise_run (program : Program α) {world : World ι σ} {run : Run ι σ (Act ι ν) α}
    (h : program.run platform visitor world = some run) :
    program.Allows run.trace run.ending ∧ Act.Arise world.embedders run.trace ∧
      run.world.embedders = world.embedders := by
  induction program generalizing world run with
  | finish ending =>
    cases h
    exact ⟨.finish ending, .nil _, rfl⟩
  | report line rest ih =>
    obtain ⟨later, hlater, rfl⟩ := Option.map_eq_some_iff.mp h
    obtain ⟨allowed, arise, same⟩ := ih hlater
    exact ⟨.report allowed, .report arise, same⟩
  | request r next ih =>
    rw [Program.run] at h
    split at h
    · exact nomatch h
    · next visits answer world' reacted =>
      obtain ⟨later, hlater, rfl⟩ := Option.map_eq_some_iff.mp h
      obtain ⟨visited, same⟩ := arise_follow hv _ reacted
      obtain ⟨allowed, arise, same'⟩ := ih answer hlater
      -- The request has left the embedders alone, so the rest is allowed in the same states.
      have same : world'.embedders = world.embedders := same
      rw [same] at arise same'
      exact ⟨.answered allowed, .call visited arise, same'⟩
    · next visits panic world' reacted =>
      cases h
      obtain ⟨visited, same⟩ := arise_follow hv _ reacted
      exact ⟨.cutShort, .call visited (.nil _), same⟩

/-- An event is handled by the rules, and the flag is clear again afterwards if it was clear before:
every embedder is left as it was, however the handling ends. -/
theorem arise_process {e : ι} {event : Event} {world : World ι σ}
    {run : Run ι σ (Act ι ν) ActivationOutcome}
    (h : platform.process visitor e event world = some run) :
    (world.embedders e).Handles event run.trace run.ending ∧
      Act.Arise (Roster.busy world.embedders e) run.trace ∧
      run.world.embedders = world.embedders := by
  unfold Platform.process at h
  split at h
  · next other =>
    cases h
    exact ⟨.other other, .nil _, rfl⟩
  · next win activated =>
    split at h
    · next busy =>
      cases h
      exact ⟨.refused activated busy, .nil _, rfl⟩
    · next idle =>
      obtain ⟨response, hresponse, rfl⟩ := Option.map_eq_some_iff.mp h
      have clear : (world.embedders e).processing = false := by simpa using idle
      obtain ⟨allowed, arise, same⟩ := arise_run hv _ hresponse
      have arise : Act.Arise (Roster.busy world.embedders e) response.trace := by
        simpa [Roster.busy] using arise
      -- The flag is cleared on both exits, and nothing else has changed by then.
      exact ⟨.responds activated clear allowed, arise,
        World.embedders_setProcessing_of_busy world e clear same⟩

/-- An event is handled and handed on by the rules, and every embedder is left as it was. -/
theorem arise_activating {e : ι} {event : Event} {world world' : World ι σ} {visit : Visit ι ν}
    {ending : Ending Int64}
    (h : platform.activating visitor e event world = some (visit, ending, world')) :
    Visit.Arise world.embedders [visit] ∧ world'.embedders = world.embedders := by
  unfold Platform.activating at h
  split at h
  · exact nomatch h
  · next handling panic after processed =>
    cases h
    obtain ⟨handles, arise, same⟩ := arise_process hv processed
    exact ⟨.activating handles arise (.unwound panic) (.nil _) (.nil _), same⟩
  · next handling outcome after processed =>
    obtain ⟨passing, hpassing, heq⟩ := Option.map_eq_some_iff.mp h
    cases heq
    obtain ⟨handles, arise, same⟩ := arise_process hv processed
    obtain ⟨allowed, arise', same'⟩ := arise_run hv _ hpassing
    -- The embedder hands on in the state that it had before the handling.
    have same : after.embedders = world.embedders := same
    rw [same] at allowed arise' same'
    exact ⟨.activating handles arise (.returned allowed) arise' (.nil _), same'⟩

end Orderly

/-- Callbacks come about by the rules at every depth of nesting, and leave every embedder as it was.
-/
theorem Platform.orderly_visit (platform : Platform ι ν σ) (depth : Nat) :
    Visitor.Orderly (platform.visit depth) := by
  induction depth with
  | zero => exact fun call world visit reply world' h => nomatch h
  | succ depth ih =>
    intro call world visit reply world' h
    cases call with
    | process e event =>
      obtain ⟨run, hrun, heq⟩ := Option.map_eq_some_iff.mp h
      cases heq
      obtain ⟨handles, arise, same⟩ := arise_process ih hrun
      exact ⟨.process handles arise (.nil _), same⟩
    | activating e event =>
      obtain ⟨⟨visit, ending, after⟩, hrun, heq⟩ := Option.map_eq_some_iff.mp h
      cases heq
      exact arise_activating ih hrun

/-! ## Calls are neutral -/

/-- The operation by which the owner of embedders makes the same call as the platform does. -/
def Callback.operation : Callback ι → Operation ι
  | process e event => .process e event
  | activating e event => .activating e event

/-- No call changes any embedder, made from inside a request or by the owner of embedders, returning
or unwinding, whatever the platform does meanwhile. -/
theorem Platform.embedders_of_call (platform : Platform ι ν σ) (depth : Nat) (call : Callback ι)
    (world world' : World ι σ) :
    (∀ visit reply, platform.visit depth call world = some (visit, reply, world') →
      world'.embedders = world.embedders) ∧
    ∀ record, platform.operate depth call.operation world = some (record, world') →
      world'.embedders = world.embedders := by
  refine ⟨fun visit reply h => (platform.orderly_visit depth h).2, fun record h => ?_⟩
  cases call with
  | process e event =>
    obtain ⟨run, hrun, heq⟩ := Option.map_eq_some_iff.mp h
    cases heq
    exact (arise_process (platform.orderly_visit depth) hrun).2.2
  | activating e event =>
    obtain ⟨⟨visit, ending, after⟩, hrun, heq⟩ := Option.map_eq_some_iff.mp h
    cases heq
    exact (arise_activating (platform.orderly_visit depth) hrun).2

/-- A desktop on which much goes wrong. Window 1 is the host, windows 2 and 3 are plots, and the
embedders 0 and 1 are installed. While the first plot is made a child of the host, both embedders
get further events, and while the first event is handed on, embedder 0 gets one about no window. The
placing of a plot panics, and so does the releasing of a hook. -/
def Desktop.crowded : World Nat (Desktop Nat) where
  embedders e := { installation := if e < 2 then some ⟨⟨1⟩, ⟨e⟩⟩ else none }
  platform :=
    { windows := fun win =>
        if win = ⟨1⟩ then some { clientArea := some {} }
        else if win = ⟨2⟩ ∨ win = ⟨3⟩ then some { className := some (Text.encode defaultPlotClass) }
        else none
      faults := fun kind =>
        if kind = .place ∨ kind = .removeHook then some (.panic "lost") else none
      triggers :=
        [(.setParent, [.process 0 (.activation ⟨3⟩), .look 0, .activating 1 (.activation ⟨3⟩)]),
          (.forward, [.process 0 (.activation ⟨9⟩)])] }

/-- The crowded desktop without its faults, and with steps that wait for embedder 0 only. While the
plot is made a child of the host the embedder gets two events, and more while it hands one of them
on and while it places the plot. -/
def Desktop.pestered : World Nat (Desktop Nat) :=
  { crowded with
    platform :=
      { crowded.platform with
        faults := fun _ => none
        triggers :=
          [(.setParent, [.activating 0 (.activation ⟨3⟩), .process 0 (.activation ⟨2⟩),
              .trigger .place [.activating 0 (.activation ⟨2⟩)]]),
            (.forward, [.process 0 (.activation ⟨3⟩)])] } }

/-- The panic of a call that the inner of two embedders gets tears through both of them, and none of
them is changed. -/
theorem Desktop.embedders_of_lost_call :
    ∃ visit world, platform.visit 2 (.activating 0 (.activation ⟨2⟩)) crowded =
      some (visit, .unwound "lost", world) ∧ world.embedders = crowded.embedders := by
  have lost : ((platform.visit 2 (.activating 0 (.activation ⟨2⟩)) crowded).map (·.2.1)) =
      some (.unwound "lost") := by decide +kernel
  obtain ⟨⟨visit, reply, world⟩, visited, ending⟩ := Option.map_eq_some_iff.mp lost
  obtain rfl : reply = .unwound "lost" := ending
  exact ⟨visit, world, visited, (Platform.embedders_of_call _ _ _ _ _).1 visit _ visited⟩

end PlotEmbedding
