import PlotEmbedding.Proofs.HandingOn
import PlotEmbedding.Proofs.Interruption
import PlotEmbedding.Proofs.Undisturbed

/-!
# Composure

What keeps the handling of an event from returning, on a platform that does not panic by itself?
`Platform.Composed` is that contract: the platform may fail, call back and answer what it likes, and
a request unwinds only after a callback did. Under it, all that is left is the arithmetic on a
client area, and `Handling.Sized` says of a handling that every area which is told in it has a size.

A callback returns if all handlings in the course of it are sized, by `Platform.composed_visit`, and
so the event is handed on. A handling that is told an area without a size unwinds, by
`Program.Heeds`, and its event is lost. `Platform.activation_returns` puts both together.

A desktop is composed from every state in which no panic is planted or waits to be planted, by
`Desktop.composed_platform`.
-/

namespace PlotEmbedding

variable {ι ν σ α β : Type}

/-! ## The contract -/

/-- The request ends with an answer unless a callback unwound before, and in the course of it the
platform is always in a state of this kind. -/
def Reaction.Composed (calm : σ → Prop) : Reaction ι ν σ α → Prop
  | .finish ending state => ending.unwinds = false ∧ calm state
  | .callback _ state resume => calm state ∧
    ∀ reply after, reply.unwinds = false → calm after → (resume reply after).Composed calm
  | .look _ rest => rest.Composed calm
  | .note _ rest => rest.Composed calm

/-- From a state of this kind on, the platform does not panic by itself. -/
def Platform.Composed (platform : Platform ι ν σ) (calm : σ → Prop) : Prop :=
  ∀ r state, calm state → (platform.react r state).Composed calm

/-- If a client area is told in the act, the area has a size. -/
def Act.sized : Act ι ν → Bool
  | .call r _ (.returned answer) => r.sized answer
  | _ => true

/-- Every client area that the embedder is told while it handles the event has a size. -/
def Handling.Sized (h : Handling ι ν) : Prop := ∀ act ∈ h.acts, act.sized = true

instance (h : Handling ι ν) : Decidable h.Sized :=
  inferInstanceAs (Decidable (∀ act ∈ h.acts, act.sized = true))

/-- An embedder does not unwind by itself when it hands an event on. -/
theorem Embedder.steady_handOn (e : Embedder) (event : Event) (outcome : ActivationOutcome) :
    (e.handOn event outcome).Steady := by
  unfold handOn
  split
  · exact fun answer _ => rfl
  · exact fun answer _ => rfl

/-- No client area is told when an event is handed on. -/
theorem Request.sized_of_isForward {r : Request} (h : r.IsForward) (answer : r.Answer) :
    r.sized answer = true := by
  cases r with
  | forward hook event => rfl
  | _ => exact h.elim

/-- Acts in which nothing but the handing on of events is asked for tell no client area. -/
theorem Act.sized_of_isForward {acts : List (Act ι ν)}
    (h : ∀ r ∈ Act.requests acts, r.IsForward) : ∀ act ∈ acts, act.sized = true := by
  induction acts with
  | nil => exact nofun
  | cons act rest ih =>
    cases act with
    | report line => exact List.forall_mem_cons.mpr ⟨rfl, ih h⟩
    | call r visits ending =>
      obtain ⟨own, later⟩ := List.forall_mem_cons.mp h
      refine List.forall_mem_cons.mpr ⟨?_, ih later⟩
      cases ending with
      | returned answer => exact Request.sized_of_isForward own answer
      | unwound panic => rfl

/-! ## Runs under the contract -/

/-- Callbacks return, and leave the platform in a state of this kind, if all handlings in the course
of them are sized. -/
def Visitor.Composed (calm : σ → Prop) (visitor : Visitor ι ν σ) : Prop :=
  ∀ ⦃call world visit reply world'⦄, visitor call world = some (visit, reply, world') →
    calm world.platform → (∀ h ∈ visit.handlings, h.Sized) →
    reply.unwinds = false ∧ calm world'.platform

section Composed

variable {calm : σ → Prop} {visitor : Visitor ι ν σ} (hv : visitor.Composed calm)
include hv

/-- A request is answered if all handlings in the course of it are sized. -/
theorem composed_follow {reaction : Reaction ι ν σ α} (composed : reaction.Composed calm)
    {embedders : ι → Embedder} {run : Run ι σ (Visit ι ν) α}
    (h : reaction.follow visitor embedders = some run)
    (sized : ∀ h ∈ Visit.allHandlings run.trace, h.Sized) :
    run.ending.unwinds = false ∧ calm run.world.platform := by
  induction reaction generalizing embedders run with
  | finish ending state =>
    cases h
    exact composed
  | look e rest ih =>
    obtain ⟨later, hlater, rfl⟩ := Option.map_eq_some_iff.mp h
    obtain ⟨returned, kept⟩ := ih composed hlater sized
    exact ⟨returned, kept⟩
  | note n rest ih =>
    obtain ⟨later, hlater, rfl⟩ := Option.map_eq_some_iff.mp h
    obtain ⟨returned, kept⟩ := ih composed hlater sized
    exact ⟨returned, kept⟩
  | callback call state resume ih =>
    rw [Reaction.follow] at h
    split at h
    · cases h
    · next visit reply world visited =>
      obtain ⟨later, hlater, rfl⟩ := Option.map_eq_some_iff.mp h
      -- The callback returns, so the reaction goes on from a state of the same kind.
      obtain ⟨during, after⟩ := List.forall_mem_append.mp sized
      obtain ⟨returned, kept⟩ := hv visited composed.1 during
      obtain ⟨answered, left⟩ := ih reply _ (composed.2 _ _ returned kept) hlater after
      exact ⟨answered, left⟩

variable {platform : Platform ι ν σ} (composed : platform.Composed calm)
include composed

/-- A steady program returns if its own acts and all handlings in the course of them are sized. -/
theorem composed_run (program : Program α) (steady : program.Steady) {world : World ι σ}
    (healthy : calm world.platform) {run : Run ι σ (Act ι ν) α}
    (h : program.run platform visitor world = some run) (own : ∀ act ∈ run.trace, act.sized = true)
    (sized : ∀ h ∈ Act.allHandlings run.trace, h.Sized) :
    run.ending.unwinds = false ∧ calm run.world.platform := by
  induction program generalizing world run with
  | finish ending =>
    cases h
    exact ⟨steady, healthy⟩
  | report line rest ih =>
    obtain ⟨later, hlater, rfl⟩ := Option.map_eq_some_iff.mp h
    obtain ⟨returned, kept⟩ := ih steady healthy hlater (List.forall_mem_cons.mp own).2 sized
    exact ⟨returned, kept⟩
  | request r next ih =>
    rw [Program.run] at h
    split at h
    · cases h
    · next visits answer world' reacted =>
      obtain ⟨later, hlater, rfl⟩ := Option.map_eq_some_iff.mp h
      obtain ⟨first, own⟩ := List.forall_mem_cons.mp own
      obtain ⟨during, after⟩ := List.forall_mem_append.mp sized
      have kept := (composed_follow hv (composed r _ healthy) reacted during).2
      obtain ⟨returned, left⟩ := ih answer (steady answer first) kept hlater own after
      exact ⟨returned, left⟩
    · next visits panic world' reacted =>
      cases h
      have during := (List.forall_mem_append.mp sized).1
      have answered := (composed_follow hv (composed r _ healthy) reacted during).1
      cases answered

variable [DecidableEq ι] {e : ι} {event : Event}

/-- The handling of an event returns if it is sized and all handlings in the course of it are. -/
theorem composed_process {world : World ι σ} (healthy : calm world.platform)
    {run : Run ι σ (Act ι ν) ActivationOutcome}
    (h : platform.process visitor e event world = some run)
    (sized : ∀ h ∈ (Visit.process e event run.trace run.ending).handlings, h.Sized) :
    run.ending.unwinds = false ∧ calm run.world.platform := by
  obtain ⟨own, during⟩ := List.forall_mem_cons.mp sized
  unfold Platform.process at h
  split at h
  · cases h
    exact ⟨rfl, healthy⟩
  · next win _ =>
    split at h
    · cases h
      exact ⟨rfl, healthy⟩
    · obtain ⟨response, responded, rfl⟩ := Option.map_eq_some_iff.mp h
      have steady := (world.embedders e).steady_respond win
      have busy : calm (world.setProcessing e true).platform := healthy
      -- The guard is put back at the end, which no state of the platform shows.
      obtain ⟨returned, kept⟩ := composed_run hv composed _ steady busy responded own during
      exact ⟨returned, kept⟩

/-- Handling an event and handing it on returns if all handlings in the course of it are sized. -/
theorem composed_activating (orderly : visitor.Orderly) {world world' : World ι σ}
    (healthy : calm world.platform) {visit : Visit ι ν} {ending : Ending Int64}
    (h : platform.activating visitor e event world = some (visit, ending, world'))
    (sized : ∀ h ∈ visit.handlings, h.Sized) :
    ending.unwinds = false ∧ calm world'.platform := by
  unfold Platform.activating at h
  split at h
  · exact nomatch h
  · next handling panic after processed =>
    cases h
    have all : ∀ h ∈ (Visit.process e event handling (.unwound panic)).handlings, h.Sized := by
      rwa [Visit.handlings, Act.allHandlings, List.append_nil] at sized
    exact nomatch (composed_process hv composed healthy processed all).1
  · next handling outcome after processed =>
    obtain ⟨⟨handingOn, ending, passed⟩, passing, heq⟩ := Option.map_eq_some_iff.mp h
    cases heq
    obtain ⟨own, all⟩ := List.forall_mem_cons.mp sized
    obtain ⟨during, onward⟩ := List.forall_mem_append.mp all
    have kept := (composed_process hv composed healthy processed
      (List.forall_mem_cons.mpr ⟨own, during⟩)).2
    have forwards := (Embedder.handOn_asks _ event outcome).requests (arise_run orderly _ passing).1
    have steady := Embedder.steady_handOn (after.embedders e) event outcome
    exact composed_run hv composed _ steady kept passing (Act.sized_of_isForward forwards) onward

end Composed

/-- Under the contract callbacks return at every depth of nesting, if all handlings in the course of
them are sized. -/
theorem Platform.composed_visit [DecidableEq ι] {calm : σ → Prop} {platform : Platform ι ν σ}
    (composed : platform.Composed calm) (depth : Nat) :
    Visitor.Composed calm (platform.visit depth) := by
  induction depth with
  | zero => exact fun call world visit reply world' h => nomatch h
  | succ depth ih =>
    intro call world visit reply world' h healthy sized
    cases call with
    | process e event =>
      obtain ⟨run, processed, heq⟩ := Option.map_eq_some_iff.mp h
      cases heq
      rw [Ending.unwinds_map]
      exact composed_process ih composed healthy processed sized
    | activating e event =>
      obtain ⟨⟨visit, ending, after⟩, activated, heq⟩ := Option.map_eq_some_iff.mp h
      cases heq
      rw [Ending.unwinds_map]
      exact composed_activating ih composed (platform.orderly_visit depth) healthy activated sized

/-! ## Areas without a size -/

/-- The answer tells a client area whose size cannot be computed for this panic. -/
def Request.Upsets (panic : String) : (r : Request) → r.Answer → Prop
  | clientArea _, .ok area => area.fillSize = .unwound panic
  | _, _ => False

namespace Program

/-- The program unwinds as soon as it is told a client area without a size. -/
def Heeds : Program α → Prop
  | .finish _ => True
  | .report _ rest => rest.Heeds
  | .request r next => ∀ answer, (next answer).Heeds ∧
    ∀ panic, r.Upsets panic answer → next answer = .finish (.unwound panic)

/-- Programs in a row unwind so if each of them does. -/
theorem Heeds.bind {p : Program α} {f : α → Program β} (hp : p.Heeds) (hf : ∀ a, (f a).Heeds) :
    (p >>= f).Heeds := by
  rw [bind_eq]
  induction p with
  | finish ending =>
    cases ending with
    | returned a => exact hf a
    | unwound panic => trivial
  | report line rest ih => exact ih hp
  | request r next ih =>
    intro answer
    obtain ⟨later, upset⟩ := hp answer
    exact ⟨ih answer later, fun panic upsets => congrArg (Program.bind · f) (upset panic upsets)⟩

/-- A run that tells a client area without a size unwinds. -/
theorem Heeds.unwound {p : Program α} (heeds : p.Heeds) {acts : List (Act ι ν)} {ending : Ending α}
    (run : p.Allows acts ending) {r : Request} {answer : r.Answer} {panic : String}
    (told : Act.Tells acts r answer) (upset : r.Upsets panic answer) : ending = .unwound panic := by
  obtain ⟨visits, among⟩ := told
  induction run with
  | finish ending => exact nomatch among
  | report _ ih =>
    rcases List.mem_cons.mp among with heq | among
    · exact nomatch heq
    · exact ih heeds among
  | answered run ih =>
    rcases List.mem_cons.mp among with heq | among
    · -- This is where the area is told, and nothing comes after it.
      cases heq
      rw [(heeds answer).2 panic upset] at run
      cases run
      rfl
    · exact ih (heeds _).1 among
  | cutShort =>
    rcases List.mem_cons.mp among with heq | among
    · exact nomatch heq
    · exact nomatch among

end Program

namespace Embedder

open Program

/-- The parts of a response unwind as soon as they are told a client area without a size. -/
theorem parts_heeds (x : Embedder) (win : Handle) : x.Parts win fun _ p => p.Heeds where
  pure _ _ := trivial
  bind _ _ _ _ := Heeds.bind
  bearsClass answer := by cases answer <;> exact ⟨trivial, nofun⟩
  isChild _ answer := by cases answer <;> exact ⟨trivial, nofun⟩
  attempt _ _ _ _ answer := by cases answer <;> exact ⟨trivial, nofun⟩
  hostSize _ answer := by
    cases answer with
    | error failure => exact ⟨trivial, nofun⟩
    | ok area => exact ⟨trivial, fun panic upset => congrArg finish upset⟩
  embedded _ _ := trivial

/-- A response to an activation unwinds as soon as the host turns out to have no size. -/
theorem heeds_respond (x : Embedder) (win : Handle) : (x.respond win).Heeds :=
  (x.parts_heeds win).respond

/-- So does the handling of an event. -/
theorem Handles.unwound {x : Embedder} {event : Event} {acts : List (Act ι ν)}
    {ending : Ending ActivationOutcome} (h : x.Handles event acts ending) {host : Handle}
    {area : Area} {panic : String} (told : Act.Tells acts (.clientArea host) (.ok area))
    (overflows : area.fillSize = .unwound panic) : ending = .unwound panic := by
  cases h with
  | other _ => exact nomatch told.choose_spec
  | refused _ _ => exact nomatch told.choose_spec
  | responds _ _ run => exact (x.heeds_respond _).unwound run told overflows

end Embedder

/-! ## The main result -/

namespace Platform

variable [DecidableEq ι] {calm : σ → Prop} {platform : Platform ι ν σ}

/-- The platform does not panic by itself. If all handlings in the course of it are sized, the
handling of an event returns an outcome, and an event that comes from the hook chain is handed on
once it has been handled, and what comes of that is returned. A handling that is told a client area
without a size unwinds instead, and then its event is not handed on. Both come to an end if every
request does. -/
theorem activation_returns (composed : platform.Composed calm) (depth : Nat) (e : ι) (event : Event)
    {world : World ι σ} (healthy : calm world.platform) :
    (∀ run, platform.process (platform.visit depth) e event world = some run →
      ((∀ h ∈ (Visit.process e event run.trace run.ending).handlings, h.Sized) →
        ∃ outcome, run.ending = .returned outcome) ∧
      ∀ host area panic, Act.Tells run.trace (.clientArea host) (.ok area) →
        area.fillSize = .unwound panic → run.ending = .unwound panic) ∧
    (∀ visit ending world',
      platform.activating (platform.visit depth) e event world = some (visit, ending, world') →
      ∃ run handingOn, platform.process (platform.visit depth) e event world = some run ∧
        visit = .activating e event run.trace run.ending handingOn ending ∧
        ((∀ h ∈ visit.handlings, h.Sized) → ∃ outcome lines visits result,
          run.ending = .returned outcome ∧ ending = .returned result ∧
          handingOn = List.map .report lines ++
            [.call (.forward (world.embedders e).hook? event) visits (.returned result)]) ∧
        ∀ host area panic, Act.Tells run.trace (.clientArea host) (.ok area) →
          area.fillSize = .unwound panic → handingOn = [] ∧ ending = .unwound panic) ∧
    ∀ calm', platform.Responsive (platform.visit depth) calm' → calm' world.platform →
      (∃ run, platform.process (platform.visit depth) e event world = some run) ∧
      ∃ result, platform.activating (platform.visit depth) e event world = some result := by
  have orderly := platform.orderly_visit depth
  have visitor := composed_visit composed depth
  refine ⟨?_, ?_, ?_⟩
  · intro run h
    refine ⟨fun sized => ?_, fun host area panic => (arise_process orderly h).1.unwound⟩
    exact Ending.exists_returned (composed_process visitor composed healthy h sized).1
  · intro visit ending world' h
    have arises := (arise_activating orderly h).1
    have settled := composed_activating visitor composed orderly healthy h
    obtain ⟨⟨handling, outcome, after⟩, handingOn, processed, rfl⟩ := process_of_activating h
    refine ⟨_, handingOn, processed, rfl, fun sized => ?_, fun host area panic told overflows => ?_⟩
    · -- The chain has answered, so that the handling before it returned as well.
      obtain ⟨result, rfl⟩ := Ending.exists_returned (settled sized).1
      cases outcome with
      | returned outcome =>
        obtain ⟨lines, visits, once, -⟩ := arises.hands_on
        exact ⟨outcome, lines, visits, result, rfl, rfl, once⟩
      | unwound panic =>
        cases arises with
        | activating _ _ handsOn _ _ => exact nomatch handsOn
    · -- The handling has unwound, and what unwound is not handed on.
      obtain rfl := (arise_process orderly processed).1.unwound told overflows
      cases arises with
      | activating _ _ handsOn _ _ =>
        cases handsOn with
        | unwound panic => exact ⟨rfl, rfl⟩
  · intro calm' responsive attentive
    obtain ⟨run, processed, -⟩ := exists_process responsive attentive e event
    obtain ⟨visit, ending, world', activated, -⟩ := exists_activating responsive attentive e event
    exact ⟨⟨run, processed⟩, _, activated⟩

end Platform

/-! ## Desktops without panics -/

/-- The change plants no panic. -/
def Change.Harmless (change : Change) : Prop := ∀ on text, change ≠ .fault on (.panic text)

mutual

/-- No panic is planted by the step, neither now nor by what it puts to wait. -/
def Step.Harmless : Step ι → Prop
  | .process _ _ => True
  | .activating _ _ => True
  | .look _ => True
  | .parentOf _ => True
  | .change made => made.Harmless
  | .trigger _ steps => Step.AllHarmless steps

/-- No panic is planted by any of the steps. -/
def Step.AllHarmless : List (Step ι) → Prop
  | [] => True
  | step :: rest => step.Harmless ∧ Step.AllHarmless rest

end

namespace Desktop

/-- No panic is planted, and none waits to be planted. -/
structure Harmless (d : Desktop ι) : Prop where
  faults : ∀ kind text, d.faults kind ≠ some (.panic text)
  waiting : ∀ entry ∈ d.triggers, Step.AllHarmless entry.2

/-- A change that plants no panic leaves a desktop without panics. -/
theorem Harmless.apply {d : Desktop ι} (harmless : d.Harmless) {change : Change}
    (h : change.Harmless) : (d.apply change).Harmless := by
  have planted : ∀ on fault, (∀ text, fault ≠ some (.panic text)) →
      (d.setFault on fault).Harmless := by
    refine fun on fault spared => ⟨fun kind text => ?_, harmless.waiting⟩
    show (if kind = on then fault else d.faults kind) ≠ some (.panic text)
    split
    · exact spared text
    · exact harmless.faults kind text
  cases change with
  | fault on fault => exact planted on _ fun text same => h on text (by rw [Option.some.inj same])
  | heal on => exact planted on none nofun
  | window win window => exact ⟨harmless.faults, harmless.waiting⟩
  | destroy win => exact ⟨harmless.faults, harmless.waiting⟩
  | chain result => exact ⟨harmless.faults, harmless.waiting⟩

/-- Steps that plant no panic may be put to wait. -/
theorem Harmless.plant {d : Desktop ι} (harmless : d.Harmless) (on : RequestKind)
    {steps : List (Step ι)} (h : Step.AllHarmless steps) : (d.plant on steps).Harmless := by
  refine ⟨harmless.faults, List.forall_mem_append.mpr ⟨harmless.waiting, ?_⟩⟩
  exact List.forall_mem_singleton.mpr h

/-- Neither the steps that are popped nor what is left of the desktop plants a panic. -/
theorem Harmless.pop {d d' : Desktop ι} (harmless : d.Harmless) {on : RequestKind}
    {steps : List (Step ι)} (h : d.pop on = some (steps, d')) :
    Step.AllHarmless steps ∧ d'.Harmless := by
  obtain ⟨⟨found, left⟩, taken, heq⟩ := Option.map_eq_some_iff.mp h
  cases heq
  have all : ∀ entry ∈ (on, steps) :: left, Step.AllHarmless entry.2 :=
    fun entry hentry => harmless.waiting entry ((perm_of_takeFirst taken).mem_iff.mpr hentry)
  obtain ⟨first, rest⟩ := List.forall_mem_cons.mp all
  exact ⟨first, harmless.faults, rest⟩

/-- No request plants a panic. -/
theorem Harmless.effect {d : Desktop ι} (harmless : d.Harmless) (r : Request) :
    (d.effect r).Harmless := by
  refine ⟨?_, ?_⟩
  · rw [faults_effect]
    exact harmless.faults
  · rw [triggers_effect]
    exact harmless.waiting

/-- A request ends with an answer where no panic is planted. -/
theorem Harmless.reply {d : Desktop ι} (harmless : d.Harmless) (r : Request) :
    (d.reply r).unwinds = false := by
  unfold Desktop.reply
  split
  · next planted => exact absurd planted (harmless.faults _ _)
  · rfl
  · rfl

/-- Steps that plant no panic do not make the request unwind that they run for. -/
theorem composed_play (answer : α) (steps : List (Step ι)) {d : Desktop ι} (harmless : d.Harmless)
    (h : Step.AllHarmless steps) : (play answer steps d).Composed Harmless := by
  induction steps generalizing d with
  | nil => exact ⟨rfl, harmless⟩
  | cons step rest ih =>
    have delivered : ∀ call : Callback ι,
        (Reaction.callback call d (unlessUnwound (play answer rest)) :
          Reaction ι Note (Desktop ι) α).Composed Harmless := by
      refine fun call => ⟨harmless, fun reply after returned kept => ?_⟩
      cases reply with
      | returned value => exact ih kept h.2
      | unwound panic => exact nomatch returned
    cases step with
    | process e event => exact delivered (.process e event)
    | activating e event => exact delivered (.activating e event)
    | look e => exact ih harmless h.2
    | parentOf win => exact ih harmless h.2
    | change change => exact ih (harmless.apply h.1) h.2
    | trigger on steps => exact ih (harmless.plant on h.1) h.2

/-- A desktop without panics answers every request, whatever fails. -/
theorem composed_platform : (platform (ι := ι)).Composed Harmless := by
  intro r d harmless
  show (react r d).Composed Harmless
  have during := harmless.effect r
  rcases react_cases r d with ends | ⟨answer, steps, d', -, popped, plays⟩
  · rw [ends]
    exact ⟨harmless.reply r, during⟩
  · rw [plays]
    obtain ⟨first, rest⟩ := during.pop popped
    exact composed_play answer steps rest first

/-- On a desktop without panics an activation is handed on, with further events in the middle of it.
-/
theorem activation_returns_of_pestered : ∃ handling outcome lines visits result world',
    platform.activating (platform.visit 2) 0 (.activation ⟨2⟩) pestered =
      some (.activating 0 (.activation ⟨2⟩) handling (.returned outcome)
        (List.map .report lines ++
          [.call (.forward (some ⟨0⟩) (.activation ⟨2⟩)) visits (.returned result)])
        (.returned result), .returned result, world') := by
  have harmless : pestered.platform.Harmless := by
    refine ⟨fun kind text => nofun, ?_⟩
    simp [pestered, Step.AllHarmless, Step.Harmless]
  have ran : ((platform.activating (platform.visit 2) 0 (.activation ⟨2⟩) pestered).map
      fun result => decide (∀ h ∈ result.1.handlings, h.Sized)) = some true := by
    decide +kernel
  obtain ⟨⟨visit, ending, world'⟩, activated, sized⟩ := Option.map_eq_some_iff.mp ran
  obtain ⟨run, handingOn, -, rfl, returns, -⟩ :=
    (Platform.activation_returns composed_platform 2 0 (.activation ⟨2⟩) harmless).2.1 visit ending
      world' activated
  obtain ⟨outcome, lines, visits, result, returned, rfl, rfl⟩ := returns (of_decide_eq_true sized)
  rw [returned] at activated
  exact ⟨run.trace, outcome, lines, visits, result, world', activated⟩

/-- The desktop on which nothing goes wrong, but for the edges of the host, which lie further apart
than a width can tell. -/
def stretched : World Nat (Desktop Nat) :=
  { crowded with
    platform :=
      { windows := fun win =>
          if win = ⟨1⟩ then some { clientArea := some ⟨-1, 0, Int32.maxValue, 0⟩ }
          else crowded.platform.windows win } }

/-- No request fails or panics, but the embedder unwinds over the width of the host, and the
activation is lost to the rest of the hook chain. -/
theorem lost_activation_of_stretched :
    (platform (ι := Nat)).Composed Harmless ∧ stretched.platform.Harmless ∧
    ∃ run, platform.process (platform.visit 0) 0 (.activation ⟨2⟩) stretched = some run ∧
      run.ending = .unwound "attempt to subtract with overflow" ∧
      ∃ world', platform.activating (platform.visit 0) 0 (.activation ⟨2⟩) stretched =
        some (.activating 0 (.activation ⟨2⟩) run.trace run.ending []
          (.unwound "attempt to subtract with overflow"),
          .unwound "attempt to subtract with overflow", world') := by
  refine ⟨composed_platform, ⟨fun kind text => nofun, nofun⟩, ?_⟩
  have ran : ((platform.process (platform.visit 0) 0 (.activation ⟨2⟩) stretched).map
      (·.ending)) = some (.unwound "attempt to subtract with overflow") := by
    decide +kernel
  obtain ⟨⟨handling, ending, world'⟩, processed, overflows⟩ := Option.map_eq_some_iff.mp ran
  obtain rfl : ending = .unwound "attempt to subtract with overflow" := overflows
  refine ⟨_, processed, rfl, world', ?_⟩
  rw [Platform.activating, processed]

end Desktop

end PlotEmbedding
