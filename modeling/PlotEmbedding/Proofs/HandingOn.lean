import PlotEmbedding.Proofs.CallTree

/-!
# Handing events on

An embedder that gets an event from the hook chain handles it and hands it on, once and last,
whatever the handling came to. Only a panic of the handling keeps it from that. The rules
of `Visit.Arise` have this pattern already, so that it only has to be read off.

While an event is handed on, the embedder is in the state in which it got the event: the flag that
the handling sets is clear again unless it was set before. `Visit.Amid` tells where in a call tree
that matters, namely everywhere but inside a further handling of an event by the same embedder.
-/

namespace PlotEmbedding

variable {ι ν σ : Type}

/-- The visit takes place amid these visits, at any depth, but not while the embedder handles an
event of theirs. -/
inductive Visit.Amid (e : ι) (visit : Visit ι ν) : List (Visit ι ν) → Prop where
  /-- It is one of the visits. -/
  | here {visits : List (Visit ι ν)} : visit ∈ visits → Amid e visit visits
  /-- It takes place while another embedder handles an event. -/
  | process {visits : List (Visit ι ν)} {name : ι} {event : Event} {acts : List (Act ι ν)}
      {ending : Ending ActivationOutcome} {request : Request} {inner : List (Visit ι ν)}
      {answer : Ending request.Answer} :
      .process name event acts ending ∈ visits → name ≠ e → .call request inner answer ∈ acts →
      Amid e visit inner → Amid e visit visits
  /-- It takes place while another embedder handles an event that it will hand on. -/
  | handling {visits : List (Visit ι ν)} {name : ι} {event : Event} {handling : List (Act ι ν)}
      {outcome : Ending ActivationOutcome} {handingOn : List (Act ι ν)} {ending : Ending Int64}
      {request : Request} {inner : List (Visit ι ν)} {answer : Ending request.Answer} :
      .activating name event handling outcome handingOn ending ∈ visits → name ≠ e →
      .call request inner answer ∈ handling → Amid e visit inner → Amid e visit visits
  /-- It takes place while any embedder hands an event on. -/
  | handingOn {visits : List (Visit ι ν)} {name : ι} {event : Event} {handling : List (Act ι ν)}
      {outcome : Ending ActivationOutcome} {handingOn : List (Act ι ν)} {ending : Ending Int64}
      {request : Request} {inner : List (Visit ι ν)} {answer : Ending request.Answer} :
      .activating name event handling outcome handingOn ending ∈ visits →
      .call request inner answer ∈ handingOn → Amid e visit inner → Amid e visit visits

variable [DecidableEq ι]

/-- Each of the visits comes about by itself. -/
theorem Visit.Arise.of_mem {roster : Roster ι} {visit : Visit ι ν} {visits : List (Visit ι ν)}
    (h : Visit.Arise roster visits) (hvisit : visit ∈ visits) : Visit.Arise roster [visit] := by
  induction visits with
  | nil => exact nomatch hvisit
  | cons first rest ih =>
    obtain ⟨now, later⟩ := Visit.arise_cons.mp h
    rcases List.mem_cons.mp hvisit with rfl | hvisit
    · exact now
    · exact ih later hvisit

/-- The visits during a request come about in the states in which the request is made. -/
theorem Act.Arise.of_mem {roster : Roster ι} {acts : List (Act ι ν)} {request : Request}
    {visits : List (Visit ι ν)} {ending : Ending request.Answer} (h : Act.Arise roster acts)
    (hcall : .call request visits ending ∈ acts) : Visit.Arise roster visits := by
  induction acts with
  | nil => exact nomatch hcall
  | cons first rest ih =>
    rcases List.mem_cons.mp hcall with rfl | among
    · cases h with
      | call visited _ => exact visited
    · cases h with
      | report later => exact ih later among
      | call _ later => exact ih later among

/-- Wherever in a call tree the embedder handles no event, it is in the state from the beginning. -/
theorem Visit.Arise.amid {roster : Roster ι} {e : ι} {visit : Visit ι ν}
    {visits : List (Visit ι ν)} (h : Visit.Arise roster visits) (amid : Visit.Amid e visit visits) :
    ∃ roster' : Roster ι, roster' e = roster e ∧ Visit.Arise roster' [visit] := by
  induction amid generalizing roster with
  | here mem => exact ⟨roster, rfl, h.of_mem mem⟩
  | process mem other call _ ih =>
    -- The flag that is set there is the one of the other embedder.
    cases h.of_mem mem with
    | process _ arise _ =>
      obtain ⟨roster', same, arises⟩ := ih (arise.of_mem call)
      rw [Roster.busy, Function.update_of_ne (Ne.symm other)] at same
      exact ⟨roster', same, arises⟩
  | handling mem other call _ ih =>
    cases h.of_mem mem with
    | activating _ arise _ _ _ =>
      obtain ⟨roster', same, arises⟩ := ih (arise.of_mem call)
      rw [Roster.busy, Function.update_of_ne (Ne.symm other)] at same
      exact ⟨roster', same, arises⟩
  | handingOn mem call _ ih =>
    cases h.of_mem mem with
    | activating _ _ _ arise _ => exact ih (arise.of_mem call)

/-- What is seen of the embedder wherever it handles no event is its state from the beginning. -/
theorem Visit.Arise.eq_of_look {roster : Roster ι} {e : ι} {embedder : Embedder}
    {visits : List (Visit ι ν)} (h : Visit.Arise roster visits)
    (amid : Visit.Amid e (.look e embedder) visits) : embedder = roster e := by
  obtain ⟨roster', same, arises⟩ := h.amid amid
  cases arises with
  | look _ => exact same

/-- An embedder that handles no event refuses an activation if and only if its flag was set from the
beginning. -/
theorem Visit.Arise.reentrant_of_process {roster : Roster ι} {e : ι} {event : Event}
    {acts : List (Act ι ν)} {ending : Ending ActivationOutcome} {visits : List (Visit ι ν)}
    (h : Visit.Arise roster visits) (amid : Visit.Amid e (.process e event acts ending) visits) :
    ending = .returned .reentrant ↔
      event.code = activationCode ∧ (roster e).processing = true := by
  obtain ⟨roster', same, arises⟩ := h.amid amid
  cases arises with
  | process handles _ _ =>
    rw [← same]
    exact handles.reentrant_iff

/-- The same for an activation that is handed on afterwards. -/
theorem Visit.Arise.reentrant_of_activating {roster : Roster ι} {e : ι} {event : Event}
    {handling : List (Act ι ν)} {outcome : Ending ActivationOutcome} {handingOn : List (Act ι ν)}
    {ending : Ending Int64} {visits : List (Visit ι ν)} (h : Visit.Arise roster visits)
    (amid : Visit.Amid e (.activating e event handling outcome handingOn ending) visits) :
    outcome = .returned .reentrant ↔
      event.code = activationCode ∧ (roster e).processing = true := by
  obtain ⟨roster', same, arises⟩ := h.amid amid
  cases arises with
  | activating handles _ _ _ _ =>
    rw [← same]
    exact handles.reentrant_iff

/-- Handing on after a handling that returned is one request, after a report or none, and what takes
place meanwhile finds the embedders as they are. -/
theorem Visit.Arise.hands_on {roster : Roster ι} {e : ι} {event : Event}
    {handling : List (Act ι ν)} {outcome : ActivationOutcome} {handingOn : List (Act ι ν)}
    {ending : Ending Int64}
    (h : Visit.Arise roster [.activating e event handling (.returned outcome) handingOn ending]) :
    ∃ lines visits, handingOn = List.map .report lines ++
        [.call (.forward (roster e).hook? event) visits ending] ∧
      Visit.Arise roster visits := by
  cases h with
  | activating _ _ handsOn arise _ =>
    cases handsOn with
    | returned run =>
      obtain ⟨lines, visits, rfl⟩ := Embedder.handOn_allows run
      exact ⟨lines, visits, rfl, arise.of_mem (List.mem_append_right _ List.mem_cons_self)⟩

/-- An event that comes from the hook chain is handled as any other is. -/
theorem Platform.process_of_activating {platform : Platform ι ν σ} {visitor : Visitor ι ν σ}
    {e : ι} {event : Event} {world world' : World ι σ} {visit : Visit ι ν} {ending : Ending Int64}
    (h : platform.activating visitor e event world = some (visit, ending, world')) :
    ∃ run handingOn, platform.process visitor e event world = some run ∧
      visit = .activating e event run.trace run.ending handingOn ending := by
  unfold Platform.activating at h
  split at h
  · exact nomatch h
  · -- Whether it returned or unwound, the handling is the one that would have been run by itself.
    next processed =>
    cases h
    exact ⟨_, _, processed, rfl⟩
  · next processed =>
    obtain ⟨passing, -, heq⟩ := Option.map_eq_some_iff.mp h
    cases heq
    exact ⟨_, _, processed, rfl⟩

/-- Handling an event makes no attempt to hand it on. Getting it from the hook chain hands it on
exactly once, after the handling, unless the handling unwinds. The event is unchanged, the hook is
the one that the embedder holds, and what comes of it is returned. Meanwhile the flag of the
embedder is as it was when the event came, so a further activation is refused only if it was set
then. -/
theorem Platform.hands_on_once (platform : Platform ι ν σ) (depth : Nat) (e : ι) (event : Event)
    (world : World ι σ) :
    (∀ run, platform.process (platform.visit depth) e event world = some run →
      ∀ request ∈ Act.requests run.trace, ¬ request.IsForward) ∧
    ∀ visit ending world',
      platform.activating (platform.visit depth) e event world = some (visit, ending, world') →
      ∃ run handingOn, platform.process (platform.visit depth) e event world = some run ∧
        visit = .activating e event run.trace run.ending handingOn ending ∧
        (∀ panic, run.ending = .unwound panic → handingOn = [] ∧ ending = .unwound panic) ∧
        ∀ outcome, run.ending = .returned outcome → ∃ lines visits,
          handingOn = List.map .report lines ++
            [.call (.forward (world.embedders e).hook? event) visits ending] ∧
          (∀ embedder, Visit.Amid e (.look e embedder) visits → embedder = world.embedders e) ∧
          (∀ event' acts ending', Visit.Amid e (.process e event' acts ending') visits →
            (ending' = .returned .reentrant ↔
              event'.code = activationCode ∧ (world.embedders e).processing = true)) ∧
          ∀ event' acts ending' handingOn' last,
            Visit.Amid e (.activating e event' acts ending' handingOn' last) visits →
            (ending' = .returned .reentrant ↔
              event'.code = activationCode ∧ (world.embedders e).processing = true) := by
  have orderly := platform.orderly_visit depth
  constructor
  · intro run h request hrequest
    exact ((arise_process orderly h).1.requests request hrequest).not_isForward
  · intro visit ending world' h
    have arises := (arise_activating orderly h).1
    obtain ⟨⟨handling, outcome, after⟩, handingOn, processed, rfl⟩ := process_of_activating h
    refine ⟨_, handingOn, processed, rfl, ?_, ?_⟩
    · rintro panic rfl
      cases arises with
      | activating _ _ handsOn _ _ =>
        cases handsOn with
        | unwound panic => exact ⟨rfl, rfl⟩
    · -- What takes place while the event is handed on is seen from the state before the event came.
      rintro outcome rfl
      obtain ⟨lines, visits, once, visited⟩ := arises.hands_on
      exact ⟨lines, visits, once, fun embedder => visited.eq_of_look,
        fun event' acts ending' => visited.reentrant_of_process,
        fun event' acts ending' handingOn' last => visited.reentrant_of_activating⟩

/-- On the crowded desktop an embedder hands on an event about no window, and meanwhile it gets
another one. -/
theorem Desktop.hands_on_of_crowded : ∃ handling lines visits world,
    platform.activating (platform.visit 1) 0 (.activation ⟨9⟩) crowded =
      some (.activating 0 (.activation ⟨9⟩) handling (.returned .classMismatch)
        (List.map .report lines ++
          [.call (.forward (some ⟨0⟩) (.activation ⟨9⟩)) visits (.returned 77)])
        (.returned 77), .returned 77, world) ∧
      ∀ event acts, .process 0 event acts (.returned .reentrant) ∉ visits := by
  have ends : ((platform.activating (platform.visit 1) 0 (.activation ⟨9⟩) crowded).map (·.2.1)) =
      some (.returned 77) := by decide +kernel
  have outcome : ((platform.process (platform.visit 1) 0 (.activation ⟨9⟩) crowded).map
      (·.ending)) = some (.returned .classMismatch) := by decide +kernel
  obtain ⟨⟨visit, ending, world⟩, activated, returned⟩ := Option.map_eq_some_iff.mp ends
  obtain rfl : ending = .returned 77 := returned
  obtain ⟨run, handingOn, processed, rfl, -, pattern⟩ :=
    (Platform.hands_on_once platform 1 0 (.activation ⟨9⟩) crowded).2 visit _ world activated
  rw [processed] at outcome
  have mismatch : run.ending = .returned .classMismatch := Option.some.inj outcome
  obtain ⟨lines, visits, rfl, -, idle, -⟩ := pattern _ mismatch
  rw [mismatch] at activated
  refine ⟨run.trace, lines, visits, world, activated, fun event acts among => ?_⟩
  -- The embedder was free when the event came, so it refuses nothing in between.
  exact nomatch ((idle event acts _ (.here among)).mp rfl).2

end PlotEmbedding
