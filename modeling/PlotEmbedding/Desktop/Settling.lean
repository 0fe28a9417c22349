import PlotEmbedding.Desktop
import PlotEmbedding.Proofs.Responsiveness

/-!
# Every run on a desktop settles

A desktop calls back only from steps that wait, and steps that run no longer wait. So the weight of
the waiting steps, `Desktop.pending`, bounds how deep callbacks can nest, and every operation on a
desktop has a result at that depth. `Desktop.operate` is the operation without any bound in sight.
-/

namespace PlotEmbedding

variable {ι α : Type}

mutual

/-- The weight of a step: planting weighs more than all that it plants. -/
def Step.weight : Step ι → Nat
  | .trigger _ steps => Step.weights steps + 2
  | .process _ _ => 1
  | .activating _ _ => 1
  | .look _ => 1
  | .parentOf _ => 1
  | .change _ => 1

/-- The weight of a list of steps. -/
def Step.weights : List (Step ι) → Nat
  | [] => 0
  | step :: rest => step.weight + Step.weights rest

end

namespace Desktop

/-- The weight of lists of waiting steps, in which every list counts for itself too. -/
def pendingWeight : List (RequestKind × List (Step ι)) → Nat
  | [] => 0
  | (_, steps) :: rest => Step.weights steps + 1 + pendingWeight rest

/-- The weight of the steps that wait on a desktop. -/
def pending (d : Desktop ι) : Nat := pendingWeight d.triggers

/-- Lists of waiting steps weigh what their parts weigh together. -/
theorem pendingWeight_append (xs ys : List (RequestKind × List (Step ι))) :
    pendingWeight (xs ++ ys) = pendingWeight xs + pendingWeight ys := by
  induction xs with
  | nil => simp [pendingWeight]
  | cons x xs ih => simp [pendingWeight, ih]; omega

/-- No change of the desktop adds to what waits or takes from it. -/
@[simp] theorem pending_apply (d : Desktop ι) (change : Change) :
    (d.apply change).pending = d.pending := by
  cases change <;> rfl

/-- Planting adds the weight of the steps, and one for their list. -/
theorem pending_plant (d : Desktop ι) (on : RequestKind) (steps : List (Step ι)) :
    (d.plant on steps).pending = d.pending + Step.weights steps + 1 := by
  simp [plant, pending, pendingWeight_append, pendingWeight]; omega

/-- Reparenting leaves what waits alone. -/
@[simp] theorem pending_reparent (d : Desktop ι) (win parent : Handle) :
    (d.reparent win parent).pending = d.pending := by
  unfold reparent; split <;> rfl

/-- No request takes effect on what waits. -/
theorem pending_answer (d : Desktop ι) :
    (request : Request) → (d.answer request).2.pending = d.pending
  | .mutate (.setParent win parent) => pending_reparent d win parent
  | .mutate (.setStyle _ _) => rfl
  | .mutate (.setExStyle _ _) => rfl
  | .mutate (.removeMenu _) => rfl
  | .mutate (.clearTitle _) => rfl
  | .mutate (.place _ _ _ _) => rfl
  | .mutate (.postMessage _ _) => rfl
  | .isWindow _ => rfl
  | .className _ _ => rfl
  | .parent _ => rfl
  | .clientArea _ => rfl
  | .installHook => rfl
  | .removeHook _ => rfl
  | .forward _ _ => rfl

/-- What is taken out of the waiting lists and what is left weigh together what there was. -/
theorem pendingWeight_takeFirst {on : RequestKind} {queue rest : List (RequestKind × List (Step ι))}
    {steps : List (Step ι)} (h : takeFirst on queue = some (steps, rest)) :
    pendingWeight queue = Step.weights steps + 1 + pendingWeight rest := by
  induction queue generalizing rest with
  | nil => simp [takeFirst] at h
  | cons entry queue ih =>
    obtain ⟨kind, waiting⟩ := entry
    rw [takeFirst] at h
    split at h
    · simp only [Option.some.injEq, Prod.mk.injEq] at h
      obtain ⟨rfl, rfl⟩ := h
      rfl
    · obtain ⟨⟨found, left⟩, hfound, heq⟩ := Option.map_eq_some_iff.mp h
      simp only [Prod.mk.injEq] at heq
      obtain ⟨rfl, rfl⟩ := heq
      simp only [pendingWeight, ih hfound]
      omega

/-- What is popped and what is left weigh together what there was. -/
theorem pending_pop {d d' : Desktop ι} {on : RequestKind} {steps : List (Step ι)}
    (h : d.pop on = some (steps, d')) :
    d.pending = Step.weights steps + 1 + d'.pending := by
  obtain ⟨⟨found, left⟩, hfound, heq⟩ := Option.map_eq_some_iff.mp h
  simp only [Prod.mk.injEq] at heq
  obtain ⟨rfl, rfl⟩ := heq
  exact pendingWeight_takeFirst hfound

/-! ## Runs settle -/

/-- Callbacks have a result while less than `bound` waits, and leave no more waiting than before. -/
def Settles (visitor : Visitor ι Note (Desktop ι)) (bound : Nat) : Prop :=
  ∀ call world, world.platform.pending < bound →
    ∃ visit reply world', visitor call world = some (visit, reply, world') ∧
      world'.platform.pending ≤ world.platform.pending

/-- A run has a result, and leaves no more than `bound` waiting. -/
def Settled {τ : Type} (run : Option (Run ι (Desktop ι) τ α)) (bound : Nat) : Prop :=
  ∃ r, run = some r ∧ r.world.platform.pending ≤ bound

/-- One thing more in front does not keep a run from settling. -/
theorem Settled.after {τ : Type} {run : Option (Run ι (Desktop ι) τ α)} {bound : Nat}
    (h : Settled run bound) (first : τ) : Settled (run.map (·.after first)) bound := by
  obtain ⟨r, rfl, hr⟩ := h
  exact ⟨r.after first, rfl, hr⟩

/-- A run that leaves little waiting leaves no more than a larger bound. -/
theorem Settled.mono {τ : Type} {run : Option (Run ι (Desktop ι) τ α)} {m n : Nat}
    (h : Settled run m) (hle : m ≤ n) : Settled run n := by
  obtain ⟨r, hr, hm⟩ := h
  exact ⟨r, hr, Nat.le_trans hm hle⟩

/-- Steps settle when what runs and what waits together stay below the bound of their callbacks. -/
theorem settled_play {visitor : Visitor ι Note (Desktop ι)} {bound : Nat}
    (hv : Settles visitor bound) (answer : α) (steps : List (Step ι)) (d : Desktop ι)
    (embedders : ι → Embedder) (h : Step.weights steps + d.pending < bound) :
    Settled ((play answer steps d).follow visitor embedders) (Step.weights steps + d.pending) := by
  induction steps generalizing d embedders with
  | nil => exact ⟨_, rfl, by simp [Step.weights]⟩
  | cons step rest ih =>
    -- The step that calls back counts for one, and that is the room which its callback needs.
    have callback : ∀ call : Callback ι,
        Step.weights rest + 1 + d.pending < bound →
        Settled ((Reaction.callback call d (unlessUnwound (play answer rest))).follow visitor
          embedders) (Step.weights rest + 1 + d.pending) := by
      intro call hlt
      obtain ⟨visit, reply, world, hvisit, hpending⟩ := hv call ⟨embedders, d⟩ (by
        show d.pending < bound; omega)
      simp only [Reaction.follow, hvisit]
      refine Settled.after ?_ _
      have hpending : world.platform.pending ≤ d.pending := hpending
      cases reply with
      | returned value =>
        exact (ih world.platform world.embedders (by omega)).mono (by omega)
      -- What is left of the steps is dropped when a callback unwinds.
      | unwound panic => exact ⟨_, rfl, by show world.platform.pending ≤ _; omega⟩
    cases step with
    | process e event =>
      simp only [Step.weights, Step.weight] at h ⊢
      exact (callback _ (by omega)).mono (by omega)
    | activating e event =>
      simp only [Step.weights, Step.weight] at h ⊢
      exact (callback _ (by omega)).mono (by omega)
    | look e =>
      simp only [Step.weights, Step.weight, play, Reaction.follow] at h ⊢
      exact ((ih d embedders (by omega)).after _).mono (by omega)
    | parentOf win =>
      simp only [Step.weights, Step.weight, play, Reaction.follow] at h ⊢
      exact ((ih d embedders (by omega)).after _).mono (by omega)
    | change change =>
      simp only [Step.weights, Step.weight, play, Reaction.follow] at h ⊢
      exact ((ih (d.apply change) embedders (by simp; omega)).after _).mono (by simp)
    | trigger on steps =>
      simp only [Step.weights, Step.weight, play, Reaction.follow] at h ⊢
      have hplant := pending_plant d on steps
      exact ((ih (d.plant on steps) embedders (by omega)).after _).mono (by omega)

/-- A request settles when no more waits than the bound of the callbacks: the steps that it runs
wait no longer. -/
theorem settled_react {visitor : Visitor ι Note (Desktop ι)} {bound : Nat}
    (hv : Settles visitor bound) (request : Request) (d : Desktop ι) (embedders : ι → Embedder)
    (h : d.pending ≤ bound) :
    Settled ((react request d).follow visitor embedders) d.pending := by
  have finished : ∀ (ending : Ending request.Answer) (d' : Desktop ι), d'.pending ≤ d.pending →
      Settled ((Reaction.finish ending d' : Reaction ι Note _ _).follow visitor embedders)
        d.pending := fun ending d' hle => ⟨_, rfl, hle⟩
  have performed : Settled ((perform request d).follow visitor embedders) d.pending := by
    have hanswer := pending_answer d request
    unfold perform
    simp only
    split
    · exact finished _ _ (by omega)
    · split
      · -- Popping lowers what waits by more than the popped steps weigh, so they may run.
        next steps d' hpop =>
        have := pending_pop hpop
        exact (settled_play hv _ steps d' embedders (by omega)).mono (by omega)
      · exact finished _ _ (by omega)
  unfold react
  split
  · exact finished _ _ (Nat.le_refl _)
  · split
    · exact finished _ _ (Nat.le_refl _)
    · exact performed
  · exact performed

/-- A desktop on which no more waits than the bound of the callbacks is responsive, and no more
waits on it afterwards. -/
theorem responsive_of_settles {visitor : Visitor ι Note (Desktop ι)} {bound waiting : Nat}
    (hv : Settles visitor bound) (h : waiting ≤ bound) :
    platform.Responsive visitor fun d => d.pending ≤ waiting := by
  intro request world hwaiting
  obtain ⟨run, hrun, hle⟩ :=
    settled_react hv request world.platform world.embedders (Nat.le_trans hwaiting h)
  exact ⟨run, hrun, Nat.le_trans hle hwaiting⟩

variable [DecidableEq ι]

/-- Callbacks on a desktop settle at every depth that exceeds what waits. -/
theorem settles_visit (depth : Nat) :
    Settles (ι := ι) (platform.visit depth) depth := by
  induction depth with
  | zero => intro call world h; omega
  | succ depth ih =>
    intro call world h
    -- What waits is below `depth + 1`, which is what the callbacks one level below can take.
    have responsive := responsive_of_settles ih (Nat.lt_succ_iff.mp h)
    cases call with
    | process e event =>
      obtain ⟨run, hrun, hle⟩ :=
        Platform.exists_process responsive (Nat.le_refl world.platform.pending) e event
      exact ⟨_, _, _, by rw [Platform.visit, hrun]; rfl, hle⟩
    | activating e event =>
      obtain ⟨visit, ending, world', hrun, hle⟩ :=
        Platform.exists_activating responsive (Nat.le_refl world.platform.pending) e event
      exact ⟨_, _, _, by rw [Platform.visit, hrun]; rfl, hle⟩

/-- A desktop is responsive when callbacks may nest as deep as the weight of what waits. -/
theorem responsive (depth : Nat) :
    (platform (ι := ι)).Responsive (platform.visit depth) fun d => d.pending ≤ depth :=
  responsive_of_settles (settles_visit depth) (Nat.le_refl depth)

/-- So every request comes to an end, whatever waits. -/
theorem responsiveWithin : (platform (ι := ι)).ResponsiveWithin pending :=
  fun d => ⟨fun d' => d'.pending ≤ d.pending, Nat.le_refl _, responsive d.pending⟩

/-- Every operation on a desktop has a result when callbacks may nest as deep as the weight of what
waits. -/
theorem isSome_operate (operation : Operation ι) (world : World ι (Desktop ι)) :
    (platform.operate world.platform.pending operation world).isSome := by
  obtain ⟨record, world', operated, -⟩ :=
    Platform.exists_operate (responsive world.platform.pending) (Nat.le_refl _) operation
  rw [operated]
  rfl

/-- Performs one operation on a desktop. -/
def operate (operation : Operation ι) (world : World ι (Desktop ι)) :
    Record ι Note × World ι (Desktop ι) :=
  (platform.operate world.platform.pending operation world).get (isSome_operate operation world)

end Desktop

end PlotEmbedding
