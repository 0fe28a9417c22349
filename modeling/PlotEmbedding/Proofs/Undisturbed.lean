import PlotEmbedding.Proofs.Transparency

/-!
# Runs without callbacks

A desktop on which no steps wait answers every request at once. What a program does there can be
computed from the desktop alone: `Program.undisturbed` is the run, and `Desktop.run_quiet` says that
there is no other. It leaves the desktop behind with the effect of each request in turn.

The handling of an event is one program, `Embedder.handle`, and the handing on after it has no
effect. So the two calls that an embedder gets come to the same on such a desktop, which is
`Desktop.operate_call_quiet`. All other operations leave everything alone but the number of hooks,
by `Desktop.operate_upkeep_quiet`.
-/

namespace PlotEmbedding

variable {ι α β : Type}

/-- A run on a desktop in the course of which no callback is made. -/
structure Solo (ι α : Type) where
  trace : List (Act ι Note)
  ending : Ending α
  desktop : Desktop ι

namespace Solo

/-- Puts one more thing in front of what was done. -/
def after (first : Act ι Note) (solo : Solo ι α) : Solo ι α :=
  { solo with trace := first :: solo.trace }

/-- The run among embedders, on which it has no effect. -/
def among (solo : Solo ι α) (embedders : Roster ι) : Run ι (Desktop ι) (Act ι Note) α :=
  ⟨solo.trace, solo.ending, ⟨embedders, solo.desktop⟩⟩

end Solo

namespace Program

/-- The run of a program on a desktop on which no steps wait. -/
def undisturbed : Program α → Desktop ι → Solo ι α
  | .finish ending, d => ⟨[], ending, d⟩
  | .report line rest, d => (rest.undisturbed d).after (.report line)
  | .request r next, d =>
    match d.reply r with
    | .returned answer =>
      ((next answer).undisturbed (d.effect r)).after (.call r [] (.returned answer))
    | .unwound panic => ⟨[.call r [] (.unwound panic)], .unwound panic, d.effect r⟩

/-- An undisturbed run is a run of the program. -/
theorem undisturbed_allows (p : Program α) (d : Desktop ι) :
    p.Allows (p.undisturbed d).trace (p.undisturbed d).ending := by
  induction p generalizing d with
  | finish ending => exact .finish ending
  | report line rest ih => exact .report (ih d)
  | request r next ih =>
    rw [undisturbed]
    split
    · next answer _ => exact .answered (ih answer _)
    · exact .cutShort

/-- Nobody else handles anything in an undisturbed run. -/
theorem allHandlings_undisturbed (p : Program α) (d : Desktop ι) :
    Act.allHandlings (p.undisturbed d).trace = [] := by
  induction p generalizing d with
  | finish ending => rfl
  | report line rest ih => exact ih d
  | request r next ih =>
    rw [undisturbed]
    split
    · next answer _ => exact ih answer _
    · rfl

/-- The desktop afterwards is the one before with the effect of each request. -/
theorem desktop_undisturbed (p : Program α) (d : Desktop ι) :
    (p.undisturbed d).desktop = (Act.requests (p.undisturbed d).trace).foldl Desktop.effect d := by
  induction p generalizing d with
  | finish ending => rfl
  | report line rest ih => exact ih d
  | request r next ih =>
    rw [undisturbed]
    split
    · next answer _ => exact ih answer _
    · rfl

/-- While an undisturbed run asks, nothing takes place. -/
theorem visits_undisturbed (p : Program α) (d : Desktop ι) :
    Act.visits (p.undisturbed d).trace = [] := by
  induction p generalizing d with
  | finish ending => rfl
  | report line rest ih => exact ih d
  | request r next ih =>
    rw [undisturbed]
    split
    · next answer _ => exact ih answer _
    · rfl

end Program

/-! ## Quiet desktops -/

namespace Desktop

/-- A request changes nothing about the steps that wait. -/
@[simp] theorem triggers_effect (d : Desktop ι) (r : Request) :
    (d.effect r).triggers = d.triggers := by
  unfold effect
  split
  · exact d.triggers_answer r
  · rfl

/-- A request changes nothing about the faults. -/
@[simp] theorem faults_effect (d : Desktop ι) (r : Request) : (d.effect r).faults = d.faults := by
  unfold effect
  split
  · cases r with
    | mutate mutation =>
      cases mutation with
      | setParent win parent =>
        show (d.reparent win parent).faults = d.faults
        unfold reparent
        split <;> rfl
      | _ => rfl
    | _ => rfl
  · rfl

/-- An undisturbed run changes nothing about the steps that wait. -/
@[simp] theorem triggers_undisturbed (p : Program α) (d : Desktop ι) :
    (p.undisturbed d).desktop.triggers = d.triggers := by
  rw [p.desktop_undisturbed d]
  exact List.foldlRecOn (motive := fun left : Desktop ι => left.triggers = d.triggers) _ _ rfl
    fun left same r _ => (left.triggers_effect r).trans same

/-- An undisturbed run changes nothing about the faults. -/
@[simp] theorem faults_undisturbed (p : Program α) (d : Desktop ι) :
    (p.undisturbed d).desktop.faults = d.faults := by
  rw [p.desktop_undisturbed d]
  exact List.foldlRecOn (motive := fun left : Desktop ι => left.faults = d.faults) _ _ rfl
    fun left same r _ => (left.faults_effect r).trans same

/-- Handing an event on has no effect. -/
theorem effect_of_isForward {r : Request} (h : r.IsForward) (d : Desktop ι) : d.effect r = d := by
  cases r with
  | forward hook event =>
    unfold effect
    split <;> rfl
  | _ => exact h.elim

/-- Handing an event on leaves the desktop as it is. -/
theorem desktop_handOn (x : Embedder) (event : Event) (outcome : ActivationOutcome)
    (d : Desktop ι) : ((x.handOn event outcome).undisturbed d).desktop = d := by
  have asks := (x.handOn_asks event outcome).requests (Program.undisturbed_allows _ d)
  rw [Program.desktop_undisturbed]
  exact List.foldlRecOn (motive := fun left => left = d) _ _ rfl
    fun left same r asked => (effect_of_isForward (asks r asked) left).trans same

/-- Installing and uninstalling has an effect on no more than the number of hooks. -/
theorem effect_of_ofUpkeep {r : Request} (h : r.OfUpkeep) (d : Desktop ι) :
    ∃ hooks, d.effect r = { d with hooks } := by
  unfold effect
  split
  · cases r with
    | isWindow win => exact ⟨d.hooks, rfl⟩
    | installHook => exact ⟨d.hooks + 1, rfl⟩
    | removeHook hook => exact ⟨d.hooks, rfl⟩
    | _ => exact h.elim
  · exact ⟨d.hooks, rfl⟩

/-- Programs that install and uninstall change no more than the number of hooks. -/
theorem desktop_of_ofUpkeep {p : Program α} {d : Desktop ι}
    (upkeep : ∀ r ∈ Act.requests (p.undisturbed d).trace, r.OfUpkeep) :
    ∃ hooks, (p.undisturbed d).desktop = { d with hooks } := by
  rw [Program.desktop_undisturbed]
  refine List.foldlRecOn (motive := fun left : Desktop ι => ∃ hooks, left = { d with hooks }) _ _
    ⟨d.hooks, rfl⟩ ?_
  rintro _ ⟨hooks, rfl⟩ r asked
  obtain ⟨hooks', effect⟩ := effect_of_ofUpkeep (upkeep r asked) { d with hooks }
  exact ⟨hooks', effect⟩

/-- If no steps wait, every request ends at once. -/
theorem react_quiet {d : Desktop ι} (quiet : d.triggers = []) (r : Request) :
    react r d = .finish (d.reply r) (d.effect r) := by
  refine (react_cases r d).resolve_right ?_
  rintro ⟨answer, steps, d', -, popped, -⟩
  rw [pop, triggers_effect, quiet] at popped
  exact nomatch popped

/-- If no steps wait, a program has its undisturbed run, whatever callbacks would do. -/
theorem run_quiet (p : Program α) (visitor : Visitor ι Note (Desktop ι))
    (world : World ι (Desktop ι)) (quiet : world.platform.triggers = []) :
    p.run platform visitor world =
      some ((p.undisturbed world.platform).among world.embedders) := by
  induction p generalizing world with
  | finish ending => rfl
  | report line rest ih =>
    rw [Program.run, ih world quiet]
    rfl
  | request r next ih =>
    have quiet' : (world.platform.effect r).triggers = [] := by rw [triggers_effect, quiet]
    rw [Program.run, Program.undisturbed, show platform.react r world.platform = _ from
      react_quiet quiet r, Reaction.follow]
    cases world.platform.reply r with
    | returned answer =>
      dsimp only
      rw [ih answer ⟨world.embedders, world.platform.effect r⟩ quiet']
      rfl
    | unwound panic => rfl

end Desktop

/-! ## Operations on a quiet desktop -/

/-- The event that a callback is about. -/
def Callback.event : Callback ι → Event
  | process _ event => event
  | activating _ event => event

/-- The handling of an event, as a program of the embedder in this state. -/
def Embedder.handle (x : Embedder) (event : Event) : Program ActivationOutcome :=
  match event.activating? with
  | none => return .notActivation
  | some win => if x.processing then return .reentrant else x.respond win

/-- The handling of an event by an embedder on the desktop as it is, undisturbed. -/
def World.handle (world : World ι (Desktop ι)) (e : ι) (event : Event) :
    Solo ι ActivationOutcome :=
  ((world.embedders e).handle event).undisturbed world.platform

/-- The world that the undisturbed handling of an event leaves behind. -/
def World.handled (world : World ι (Desktop ι)) (e : ι) (event : Event) : World ι (Desktop ι) :=
  ⟨world.embedders, (world.handle e event).desktop⟩

/-- An event is handled by the rules. -/
theorem Embedder.handles_of_allows {ν : Type} {x : Embedder} {event : Event}
    {acts : List (Act ι ν)} {ending : Ending ActivationOutcome}
    (run : (x.handle event).Allows acts ending) : x.Handles event acts ending := by
  unfold handle at run
  split at run
  · next other =>
    cases run
    exact .other other
  · next win activated =>
    split at run
    · next busy =>
      cases run
      exact .refused activated busy
    · next idle => exact .responds activated (Bool.eq_false_iff.mpr idle) run

namespace Desktop

variable [DecidableEq ι] {world : World ι (Desktop ι)} (quiet : world.platform.triggers = [])
include quiet

/-- The handling of an event is undisturbed. -/
theorem process_quiet (visitor : Visitor ι Note (Desktop ι)) (e : ι) (event : Event) :
    platform.process visitor e event world =
      some ((world.handle e event).among world.embedders) := by
  unfold Platform.process World.handle Embedder.handle
  cases event.activating? with
  | none => rfl
  | some win =>
    dsimp only
    split
    · rfl
    · next idle =>
      have clear : (world.embedders e).processing = false := Bool.eq_false_iff.mpr idle
      rw [run_quiet _ visitor (world.setProcessing e true) quiet]
      refine congrArg some (congrArg (Run.mk _ _) (congrArg (World.mk · _) ?_))
      exact World.embedders_setProcessing_of_busy world e clear rfl

/-- A call that an embedder gets is one handling, of which only its own requests have an effect,
whether the event is handed on or not. -/
theorem operate_call_quiet (call : Callback ι) :
    ∃ visit, operate call.operation world =
        (.visit visit, world.handled call.embedder call.event) ∧
      visit.handlings = [⟨call.embedder, call.event,
        (world.handle call.embedder call.event).trace,
        (world.handle call.embedder call.event).ending⟩] := by
  have alone : Act.allHandlings (world.handle call.embedder call.event).trace = [] :=
    Program.allHandlings_undisturbed _ _
  have processed := process_quiet quiet (platform.visit world.platform.pending) call.embedder
    call.event
  cases call with
  | process e event =>
    refine ⟨_, operate_of_process processed, ?_⟩
    rw [Visit.handlings]
    exact congrArg _ alone
  | activating e event =>
    have quiet' : (world.handle e event).desktop.triggers = [] :=
      (triggers_undisturbed ..).trans quiet
    unfold World.handled
    simp only [Callback.embedder, Callback.event, Callback.operation] at *
    generalize world.handle e event = solo at *
    obtain ⟨trace, ending, d⟩ := solo
    cases ending with
    | unwound panic =>
      refine ⟨.activating e event trace (.unwound panic) [] (.unwound panic), ?_, ?_⟩
      · rw [operate_eq_iff, Platform.operate, Platform.activating, processed]
        rfl
      · simp [Visit.handlings, alone, Act.allHandlings]
    | returned outcome =>
      -- Handing on has no effect on the desktop, so the handling alone tells what the world
      -- becomes.
      have passed := run_quiet ((world.embedders e).handOn event outcome)
        (platform.visit world.platform.pending) ⟨world.embedders, d⟩ quiet'
      have silent := Program.allHandlings_undisturbed ((world.embedders e).handOn event outcome) d
      have same := desktop_handOn (world.embedders e) event outcome d
      generalize ((world.embedders e).handOn event outcome).undisturbed d = passing at *
      refine ⟨.activating e event trace (.returned outcome) passing.trace passing.ending, ?_, ?_⟩
      · rw [operate_eq_iff, Platform.operate, Platform.activating, processed]
        dsimp only [Solo.among]
        rw [passed, ← same]
        rfl
      · simp [Visit.handlings, alone, silent]

/-- Uninstalling an embedder involves no handling, and changes no more than the number of hooks. -/
theorem uninstall_quiet {e : ι} {visitor : Visitor ι Note (Desktop ι)}
    {run : Run ι (Desktop ι) (Act ι Note) Bool}
    (h : platform.uninstall visitor e world = some run) :
    Act.allHandlings run.trace = [] ∧
      ∃ hooks, run.world.platform = { world.platform with hooks } := by
  have ran := run_quiet (world.embedders e).uninstall visitor
    (world.set e { world.embedders e with installation := none }) quiet
  obtain rfl := Option.some.inj (h.symm.trans ran)
  exact ⟨Program.allHandlings_undisturbed .., desktop_of_ofUpkeep
    (Embedder.ofUpkeep_of_uninstall (Program.undisturbed_allows ..))⟩

/-- An operation that is no call involves no handling, and changes no more than the number of hooks.
-/
theorem operate_upkeep_quiet {operation : Operation ι}
    (upkeep : ∀ call : Callback ι, call.operation ≠ operation) :
    (operate operation world).1.handlings = [] ∧
      ∃ hooks, (operate operation world).2.platform = { world.platform with hooks } := by
  have found := operate_eq_iff.mp (Eq.refl (operate operation world))
  generalize operate operation world = result at found ⊢
  cases operation with
  | create e options =>
    obtain ⟨run, uninstalled, rfl⟩ := Option.map_eq_some_iff.mp found
    exact uninstall_quiet quiet uninstalled
  | install e host =>
    obtain ⟨run, ran, rfl⟩ := Option.map_eq_some_iff.mp found
    rw [run_quiet _ _ world quiet] at ran
    obtain rfl := Option.some.inj ran
    have silent := Program.allHandlings_undisturbed ((world.embedders e).install host)
      world.platform
    -- An installation may count a hook, and that is all.
    have same := desktop_of_ofUpkeep (Embedder.installs_of_allows
      (Program.undisturbed_allows ((world.embedders e).install host) world.platform)).ofUpkeep
    generalize ((world.embedders e).install host).undisturbed world.platform = solo at *
    obtain ⟨trace, ending, d⟩ := solo
    cases ending with
    | returned result => exact ⟨silent, same⟩
    | unwound panic => exact ⟨silent, same⟩
  | uninstall e =>
    obtain ⟨run, uninstalled, rfl⟩ := Option.map_eq_some_iff.mp found
    exact uninstall_quiet quiet uninstalled
  | drop e =>
    obtain ⟨run, uninstalled, rfl⟩ := Option.map_eq_some_iff.mp found
    exact uninstall_quiet quiet uninstalled
  | process e event => exact absurd rfl (upkeep (.process e event))
  | activating e event => exact absurd rfl (upkeep (.activating e event))

end Desktop

end PlotEmbedding
