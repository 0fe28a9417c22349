import PlotEmbedding.Proofs.Course

/-!
# Re-entrant activations are transparent

A desktop may deliver further events to an embedder while it handles one. The embedder refuses them
all, so it makes no difference whether they are delivered: the handling goes the same way as on the
desktop that lies still, `Desktop.still`, which is the same but for the steps that wait.

`Desktop.OnlyFor` says of a desktop that the steps waiting on it deliver events to one embedder and
do nothing else to windows or embedders, and `Inert` says of what callbacks do that the desktop is
the same afterwards and that nothing was asked for but the handing on of events. Callbacks to an
embedder that is busy are inert at every depth, by `Desktop.inert_visit`. From there on the two runs
are compared request by request, by `Desktop.calm_react` and `Desktop.react_still`, in
`Desktop.run_still`.
-/

namespace PlotEmbedding

variable {ι α : Type}

/-- The embedder that a callback is for. -/
def Callback.embedder : Callback ι → ι
  | process e _ => e
  | activating e _ => e

mutual

/-- The step delivers an event to the embedder, puts steps of this kind to wait, or reads. -/
def Step.Only (e : ι) : Step ι → Prop
  | .process name _ => name = e
  | .activating name _ => name = e
  | .look _ => True
  | .parentOf _ => True
  | .change _ => False
  | .trigger _ steps => Step.AllOnly e steps

/-- All of the steps are of this kind. -/
def Step.AllOnly (e : ι) : List (Step ι) → Prop
  | [] => True
  | step :: rest => step.Only e ∧ Step.AllOnly e rest

end

/-- The act without what took place meanwhile. -/
def Act.alone {ν : Type} : Act ι ν → Act ι ν
  | .report line => .report line
  | .call request _ ending => .call request [] ending

/-- If anything is asked for at the moment, then the embedder hands an event on to this hook. -/
def Moment.OnlyHandsOn (e : ι) (hook : Option Hook) : Moment ι → Prop
  | asks name part request => name = e ∧ part = .handingOn ∧ ∃ event, request = .forward hook event
  | begins _ _ => True
  | hears _ _ _ _ => True
  | looks _ _ => True
  | ends _ _ => True

/-- Nothing is asked for in the course of the visits, but the embedder hands events on to this hook.
-/
def Visit.OnlyHandOn {ν : Type} (e : ι) (hook : Option Hook) (visits : List (Visit ι ν)) : Prop :=
  ∀ moment ∈ Visit.chronicle visits, moment.OnlyHandsOn e hook

/-- Reports take no moment. -/
theorem Act.chronicle_reports {ν : Type} (e : ι) (part : Part) (lines : List Report)
    (rest : List (Act ι ν)) :
    Act.chronicle e part (lines.map .report ++ rest) = Act.chronicle e part rest := by
  induction lines with
  | nil => rfl
  | cons line lines ih => exact ih

/-- A program whose first request is answered goes on with the answer. -/
theorem Program.run_of_answered {ν σ : Type} {platform : Platform ι ν σ} {visitor : Visitor ι ν σ}
    {r : Request} {next : r.Answer → Program α} {world world' : World ι σ}
    {visits : List (Visit ι ν)} {answer : r.Answer}
    (h : (platform.react r world.platform).follow visitor world.embedders =
      some ⟨visits, .returned answer, world'⟩) :
    (request r next).run platform visitor world = ((next answer).run platform visitor world').map
      (·.after (.call r visits (.returned answer))) := by
  rw [run, h]

namespace Desktop

/-- The steps that wait deliver events to the embedder, and do nothing else to windows or embedders.
-/
def OnlyFor (e : ι) (d : Desktop ι) : Prop := ∀ entry ∈ d.triggers, Step.AllOnly e entry.2

/-- Answering a request changes nothing about the steps that wait. -/
theorem triggers_answer (d : Desktop ι) (r : Request) : (d.answer r).2.triggers = d.triggers := by
  cases r with
  | mutate mutation =>
    cases mutation with
    | setParent win parent =>
      show (d.reparent win parent).triggers = d.triggers
      unfold reparent
      split <;> rfl
    | _ => rfl
  | _ => rfl

/-- A list of steps that is taken out of others is one of them, and the rest is left. -/
theorem perm_of_takeFirst {on : RequestKind} {queue left : List (RequestKind × List (Step ι))}
    {steps : List (Step ι)} (h : takeFirst on queue = some (steps, left)) :
    queue.Perm ((on, steps) :: left) := by
  induction queue generalizing left with
  | nil => exact nomatch h
  | cons entry queue ih =>
    obtain ⟨kind, waiting⟩ := entry
    rw [takeFirst] at h
    split at h
    · next same =>
      cases h
      rw [same]
    · obtain ⟨⟨found, rest⟩, taken, heq⟩ := Option.map_eq_some_iff.mp h
      cases heq
      exact ((ih taken).cons _).trans (List.Perm.swap ..)

/-- Steps that are taken out of the waiting ones are of their kind, and so are those that are left.
-/
theorem OnlyFor.pop {e : ι} {d d' : Desktop ι} {on : RequestKind} {steps : List (Step ι)}
    (only : d.OnlyFor e) (h : d.pop on = some (steps, d')) :
    Step.AllOnly e steps ∧ d'.OnlyFor e := by
  obtain ⟨⟨found, left⟩, taken, heq⟩ := Option.map_eq_some_iff.mp h
  cases heq
  have all : ∀ entry ∈ (on, steps) :: left, Step.AllOnly e entry.2 :=
    fun entry hentry => only entry ((perm_of_takeFirst taken).mem_iff.mpr hentry)
  exact ⟨all _ List.mem_cons_self, fun entry h => all entry (List.mem_cons_of_mem _ h)⟩

/-- A request changes nothing about the steps that wait. -/
theorem OnlyFor.effect {e : ι} {d : Desktop ι} (only : d.OnlyFor e) (r : Request) :
    (d.effect r).OnlyFor e := by
  unfold Desktop.effect
  split
  · rw [OnlyFor, triggers_answer]
    exact only
  · exact only

/-! ## Callbacks to a busy embedder -/

/-- After the visits the desktop is the same but for the steps that wait, which are still of their
kind, the embedders are the same, and nothing was asked for but the handing on of events. -/
structure Calm (e : ι) (world : World ι (Desktop ι)) (visits : List (Visit ι Note))
    (world' : World ι (Desktop ι)) : Prop where
  platform : world'.platform.still = world.platform.still
  only : world'.platform.OnlyFor e
  embedders : world'.embedders = world.embedders
  handsOn : Visit.OnlyHandOn e (world.embedders e).hook? visits

/-- Nothing takes place. -/
theorem Calm.refl {e : ι} {world : World ι (Desktop ι)} (only : world.platform.OnlyFor e) :
    Calm e world [] world :=
  ⟨rfl, only, rfl, List.forall_mem_nil _⟩

/-- Calm visits follow on a calm one. -/
theorem Calm.cons {e : ι} {world world' world'' : World ι (Desktop ι)} {visit : Visit ι Note}
    {rest : List (Visit ι Note)} (first : Calm e world [visit] world')
    (later : Calm e world' rest world'') : Calm e world (visit :: rest) world'' := by
  have here := first.handsOn
  have hook := later.handsOn
  rw [Visit.OnlyHandOn, Visit.chronicle_singleton] at here
  rw [first.embedders] at hook
  exact ⟨later.platform.trans first.platform, later.only,
    later.embedders.trans first.embedders, List.forall_mem_append.mpr ⟨here, hook⟩⟩

/-- What the callbacks to an embedder do while it is busy is calm. -/
def Inert (e : ι) (visitor : Visitor ι Note (Desktop ι)) : Prop :=
  ∀ ⦃call world visit reply world'⦄, visitor call world = some (visit, reply, world') →
    call.embedder = e → (world.embedders e).processing = true → world.platform.OnlyFor e →
    Calm e world [visit] world'

section Inert

variable {e : ι} {visitor : Visitor ι Note (Desktop ι)} (inert : Inert e visitor)
include inert

/-- Steps that only deliver events to a busy embedder are calm. -/
theorem calm_play {answer : α} {steps : List (Step ι)} {d : Desktop ι} {embedders : Roster ι}
    {run : Run ι (Desktop ι) (Visit ι Note) α} (busy : (embedders e).processing = true)
    (kind : Step.AllOnly e steps) (only : d.OnlyFor e)
    (h : (play answer steps d).follow visitor embedders = some run) :
    Calm e ⟨embedders, d⟩ run.trace run.world := by
  induction steps generalizing d embedders run with
  | nil =>
    cases h
    exact .refl only
  | cons step rest ih =>
    obtain ⟨now, kind⟩ := kind
    -- The embedder to which the event goes is busy, and so the visit is inert.
    have delivered : ∀ call : Callback ι, call.embedder = e →
        (Reaction.callback call d (unlessUnwound (play answer rest))).follow visitor embedders =
          some run →
        Calm e ⟨embedders, d⟩ run.trace run.world := by
      intro call name h
      rw [Reaction.follow] at h
      split at h
      · cases h
      · next visit reply world visited =>
        obtain ⟨later, hlater, rfl⟩ := Option.map_eq_some_iff.mp h
        have first := inert visited name busy only
        cases reply with
        | returned value =>
          have busy' : (world.embedders e).processing = true := by
            rw [first.embedders]
            exact busy
          exact first.cons (ih busy' kind first.only hlater)
        | unwound panic =>
          cases hlater
          exact first
    -- What only shows up in the notes leaves the desktop as it is, but for the steps that wait.
    have noted : ∀ (visit : Visit ι Note) {d' : Desktop ι}, d'.still = d.still → d'.OnlyFor e →
        Visit.OnlyHandOn e (embedders e).hook? [visit] →
        ((play answer rest d').follow visitor embedders).map (·.after visit) = some run →
        Calm e ⟨embedders, d⟩ run.trace run.world := by
      intro visit d' same only' quiet h
      obtain ⟨later, hlater, rfl⟩ := Option.map_eq_some_iff.mp h
      have first : Calm e ⟨embedders, d⟩ [visit] ⟨embedders, d'⟩ := ⟨same, only', rfl, quiet⟩
      exact first.cons (ih busy kind only' hlater)
    cases step with
    | process name event => exact delivered (.process name event) now h
    | activating name event => exact delivered (.activating name event) now h
    | look name =>
      exact noted (.look name (embedders name)) rfl only (List.forall_mem_singleton.mpr trivial) h
    | parentOf win =>
      exact noted (.note (.parentOf win (d.parentOf win))) rfl only (List.forall_mem_nil _) h
    | change change => exact now.elim
    | trigger on steps =>
      have same : (d.plant on steps).still = d.still := rfl
      have only' : (d.plant on steps).OnlyFor e :=
        List.forall_mem_append.mpr ⟨only, List.forall_mem_singleton.mpr now⟩
      exact noted (.note (.planted on)) same only' (List.forall_mem_nil _) h

/-- What takes place during a request of a busy embedder is calm, once the request has taken effect.
-/
theorem calm_react {r : Request} {d : Desktop ι} {embedders : Roster ι}
    {run : Run ι (Desktop ι) (Visit ι Note) r.Answer} (busy : (embedders e).processing = true)
    (only : d.OnlyFor e) (h : (react r d).follow visitor embedders = some run) :
    Calm e ⟨embedders, d.effect r⟩ run.trace run.world := by
  rcases react_cases r d with ends | ⟨answer, steps, d', -, popped, plays⟩
  · rw [ends] at h
    cases h
    exact .refl (only.effect r)
  · rw [plays] at h
    obtain ⟨kind, left⟩ := (only.effect r).pop popped
    have calm := calm_play inert busy kind left h
    exact ⟨calm.platform.trans (still_of_pop popped), calm.only, calm.embedders, calm.handsOn⟩

/-- A busy embedder hands an event on in calm. -/
theorem calm_forward {hook : Option Hook} {event : Event} {world : World ι (Desktop ι)}
    {run : Run ι (Desktop ι) (Act ι Note) Int64} (busy : (world.embedders e).processing = true)
    (only : world.platform.OnlyFor e)
    (h : (Program.ask (.forward hook event)).run platform visitor world = some run) :
    ∃ visits, run.trace = [.call (.forward hook event) visits run.ending] ∧
      Calm e world visits run.world := by
  have effect : world.platform.effect (.forward hook event) = world.platform := by
    unfold Desktop.effect
    split <;> rfl
  rw [Program.ask, Program.run] at h
  split at h
  · cases h
  · next visits answer world' reacted =>
    cases h
    have calm := calm_react inert busy only reacted
    rw [effect] at calm
    exact ⟨visits, rfl, calm⟩
  · next visits panic world' reacted =>
    cases h
    have calm := calm_react inert busy only reacted
    rw [effect] at calm
    exact ⟨visits, rfl, calm⟩

/-- A busy embedder hands an event on in calm, with or without a report before. -/
theorem calm_handOn {event : Event} {outcome : ActivationOutcome} {world : World ι (Desktop ι)}
    {run : Run ι (Desktop ι) (Act ι Note) Int64} (busy : (world.embedders e).processing = true)
    (only : world.platform.OnlyFor e)
    (h : ((world.embedders e).handOn event outcome).run platform visitor world = some run) :
    ∃ (lines : List Report) (visits : List (Visit ι Note)), run.trace = lines.map .report ++
        [.call (.forward (world.embedders e).hook? event) visits run.ending] ∧
      Calm e world visits run.world := by
  unfold Embedder.handOn at h
  split at h
  · obtain ⟨later, hlater, rfl⟩ := Option.map_eq_some_iff.mp h
    obtain ⟨visits, trace, calm⟩ := calm_forward inert busy only hlater
    exact ⟨[_], visits, congrArg (_ :: ·) trace, calm⟩
  · obtain ⟨visits, trace, calm⟩ := calm_forward inert busy only h
    exact ⟨[], visits, trace, calm⟩

end Inert

variable [DecidableEq ι]

/-- An embedder that is busy handles an event by doing nothing. -/
theorem process_of_busy {e : ι} (event : Event) (visitor : Visitor ι Note (Desktop ι))
    {world : World ι (Desktop ι)} (busy : (world.embedders e).processing = true) :
    ∃ outcome, platform.process visitor e event world = some ⟨[], .returned outcome, world⟩ := by
  unfold Platform.process
  split
  · exact ⟨_, rfl⟩
  · rw [if_pos busy]
    exact ⟨_, rfl⟩

/-- The callbacks to a busy embedder are calm at every depth of nesting. -/
theorem inert_visit (e : ι) (depth : Nat) : Inert e (platform.visit depth) := by
  induction depth with
  | zero => exact fun call world visit reply world' h => nomatch h
  | succ depth ih =>
    intro call world visit reply world' h name busy only
    cases call with
    | process name' event =>
      obtain rfl : name' = e := name
      obtain ⟨outcome, refused⟩ := process_of_busy event (platform.visit depth) busy
      rw [Platform.visit, refused] at h
      cases h
      have quiet : Visit.OnlyHandOn name' (world.embedders name').hook?
          [(.process name' event [] (.returned outcome) : Visit ι Note)] :=
        Visit.forall_chronicle_process.mpr ⟨trivial, List.forall_mem_nil _, trivial,
          List.forall_mem_nil _⟩
      exact ⟨rfl, only, rfl, quiet⟩
    | activating name' event =>
      obtain rfl : name' = e := name
      obtain ⟨outcome, refused⟩ := process_of_busy event (platform.visit depth) busy
      obtain ⟨⟨visit, ending, after⟩, activated, heq⟩ := Option.map_eq_some_iff.mp h
      cases heq
      rw [Platform.activating, refused] at activated
      obtain ⟨passing, hpassing, heq⟩ := Option.map_eq_some_iff.mp activated
      cases heq
      -- The event is refused and then handed on, and that is the only request.
      obtain ⟨lines, visits, trace, calm⟩ := calm_handOn ih busy only hpassing
      refine ⟨calm.platform, calm.only, calm.embedders, ?_⟩
      rw [trace, Visit.OnlyHandOn, Visit.forall_chronicle_activating, Act.chronicle_reports,
        Act.forall_chronicle_call]
      exact ⟨trivial, List.forall_mem_nil _, trivial,
        ⟨⟨rfl, rfl, event, rfl⟩, calm.handsOn, trivial, List.forall_mem_nil _⟩,
        List.forall_mem_nil _⟩

/-! ## The two runs -/

/-- The world in which the desktop lies still. -/
def stilled (world : World ι (Desktop ι)) : World ι (Desktop ι) :=
  { world with platform := world.platform.still }

omit [DecidableEq ι] in
/-- What a busy embedder does and returns it also does and returns on a desktop that lies still. -/
theorem run_still {e : ι} {visitor : Visitor ι Note (Desktop ι)} (inert : Inert e visitor)
    (program : Program α) {world : World ι (Desktop ι)}
    {run : Run ι (Desktop ι) (Act ι Note) α} {a : α}
    (busy : (world.embedders e).processing = true) (only : world.platform.OnlyFor e)
    (h : program.run platform visitor world = some run) (returned : run.ending = .returned a)
    (still : Visitor ι Note (Desktop ι)) :
    program.run platform still (stilled world) =
        some ⟨run.trace.map Act.alone, .returned a, stilled run.world⟩ ∧
      ∀ request visits ending, .call request visits ending ∈ run.trace →
        Visit.OnlyHandOn e (world.embedders e).hook? visits := by
  induction program generalizing world run with
  | finish ending =>
    cases h
    obtain rfl : ending = .returned a := returned
    exact ⟨rfl, fun _ _ _ h => (List.not_mem_nil h).elim⟩
  | report line rest ih =>
    obtain ⟨later, hlater, rfl⟩ := Option.map_eq_some_iff.mp h
    obtain ⟨same, calls⟩ := ih busy only hlater returned
    refine ⟨?_, fun request visits ending among => ?_⟩
    · rw [Program.run, same]
      rfl
    · rcases List.mem_cons.mp among with heq | among
      · cases heq
      · exact calls request visits ending among
  | request r next ih =>
    rw [Program.run] at h
    split at h
    · cases h
    · next visits answer world' reacted =>
      obtain ⟨later, hlater, rfl⟩ := Option.map_eq_some_iff.mp h
      have calm := calm_react inert busy only reacted
      have planned : world.platform.reply r = .returned answer := reply_of_react reacted rfl
      have busy' : (world'.embedders e).processing = true := by
        rw [calm.embedders]
        exact busy
      obtain ⟨same, calls⟩ := ih answer busy' calm.only hlater returned
      -- The request is answered at once, and leaves the world in which the rest begins.
      have reacted' : (platform.react r (stilled world).platform).follow still
          (stilled world).embedders = some ⟨[], .returned answer, stilled world'⟩ := by
        show (react r world.platform.still).follow still world.embedders = _
        rw [react_still, planned, Reaction.follow, stilled, calm.platform, calm.embedders]
      refine ⟨?_, fun request visits' ending among => ?_⟩
      · rw [Program.run_of_answered reacted', same]
        rfl
      · rcases List.mem_cons.mp among with heq | among
        · cases heq
          exact calm.handsOn
        · have later := calls request visits' ending among
          rw [calm.embedders] at later
          exact later
    · next visits panic world' reacted =>
      cases h
      cases returned

/-- What an embedder does and returns when it handles an event it also does and returns on a desktop
that lies still, whatever callbacks do there. -/
theorem process_still {e : ι} {event : Event} {depth : Nat} {world world' : World ι (Desktop ι)}
    {acts : List (Act ι Note)} {outcome : ActivationOutcome} (only : world.platform.OnlyFor e)
    (h : platform.process (platform.visit depth) e event world =
      some ⟨acts, .returned outcome, world'⟩)
    (still : Visitor ι Note (Desktop ι)) :
    platform.process still e event (stilled world) =
        some ⟨acts.map Act.alone, .returned outcome, stilled world'⟩ ∧
      ∀ request visits ending, .call request visits ending ∈ acts →
        Visit.OnlyHandOn e (world.embedders e).hook? visits := by
  unfold Platform.process at h ⊢
  split at h
  · cases h
    exact ⟨rfl, nofun⟩
  · next win activated =>
    split at h
    · next busy =>
      cases h
      exact ⟨if_pos busy, nofun⟩
    · next idle =>
      obtain ⟨⟨trace, ending, after⟩, responded, heq⟩ := Option.map_eq_some_iff.mp h
      cases heq
      have busy : ((world.setProcessing e true).embedders e).processing = true := by simp
      have hook : ((world.setProcessing e true).embedders e).hook? =
          (world.embedders e).hook? := by simp [Embedder.hook?]
      -- The flag is what makes the callbacks inert, and it is set on both desktops.
      obtain ⟨same, calls⟩ := run_still (inert_visit e _) _ busy only responded rfl still
      rw [hook] at calls
      refine ⟨(if_neg idle).trans ?_, calls⟩
      show Option.map _ (((world.embedders e).respond win).run platform still
        (stilled (world.setProcessing e true))) = _
      rw [same]
      rfl

/-- It makes no difference to the handling of an event whether more events are delivered to the
embedder meanwhile, unless something panics: on the desktop without the steps that wait the embedder
gives the same outcome, makes the same requests and reports, gets the same answers, and leaves the
same world behind but for the steps that wait. All that the further events add is that they are
handed on. -/
theorem process_transparent {e : ι} {event : Event} {world world' : World ι (Desktop ι)}
    {acts : List (Act ι Note)} {outcome : ActivationOutcome} (only : world.platform.OnlyFor e)
    (h : operate (.process e event) world =
      (.visit (.process e event acts (.returned outcome)), world')) :
    operate (.process e event) (stilled world) =
        (.visit (.process e event (acts.map Act.alone) (.returned outcome)), stilled world') ∧
      ∀ request visits ending, .call request visits ending ∈ acts →
        Visit.OnlyHandOn e (world.embedders e).hook? visits := by
  obtain ⟨⟨acts, ending, world'⟩, processed, same⟩ := operate_process e event world
  cases same.symm.trans h
  -- Without steps that wait there is no callback, so the depth to which they may nest is no matter.
  obtain ⟨still, calls⟩ := process_still only processed
    (platform.visit (stilled world).platform.pending)
  exact ⟨operate_of_process still, calls⟩

/-- Four events in the middle of an embedding are refused, and the plot is embedded as it is without
them. -/
theorem process_transparent_of_pestered : ∃ acts world',
    operate (.process 0 (.activation ⟨2⟩)) pestered =
      (.visit (.process 0 (.activation ⟨2⟩) acts (.returned (.embedded ⟨0, 0⟩))), world') ∧
    (Act.chronicle 0 .handling acts).countP
      (· matches .ends 0 (.returned .reentrant)) = 4 ∧
    operate (.process 0 (.activation ⟨2⟩)) (stilled pestered) =
      (.visit (.process 0 (.activation ⟨2⟩) (acts.map Act.alone) (.returned (.embedded ⟨0, 0⟩))),
        stilled world') := by
  have only : pestered.platform.OnlyFor 0 := by
    simp [OnlyFor, pestered, Step.AllOnly, Step.Only]
  have ends : (platform.process (platform.visit pestered.platform.pending) 0 (.activation ⟨2⟩)
      pestered).map (fun run => (run.ending, (Act.chronicle 0 .handling run.trace).countP
        (· matches .ends 0 (.returned .reentrant)))) = some (.returned (.embedded ⟨0, 0⟩), 4) := by
    decide +kernel
  obtain ⟨⟨acts, ending, world'⟩, processed, outcome⟩ := Option.map_eq_some_iff.mp ends
  obtain ⟨rfl, refusals⟩ := Prod.mk.inj outcome
  have operated : operate (.process 0 (.activation ⟨2⟩)) pestered =
      (.visit (.process 0 (.activation ⟨2⟩) acts (.returned (.embedded ⟨0, 0⟩))), world') :=
    operate_of_process processed
  exact ⟨acts, world', operated, refusals, (process_transparent only operated).1⟩

end Desktop

end PlotEmbedding
