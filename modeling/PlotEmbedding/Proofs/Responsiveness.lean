import PlotEmbedding.Operation

/-!
# Responsive platforms

A platform may call back again and again in the course of a request, and then the request never
ends. `Platform.Responsive` is the contract that every request comes to an end. Under it a program
does so too, request by request, by `Program.exists_run`, and with it every operation, by
`Platform.exists_operate`.
-/

namespace PlotEmbedding

variable {ι ν σ α : Type}

/-- From a state of this kind on, every request comes to an end and leaves the platform in such a
state. -/
def Platform.Responsive (platform : Platform ι ν σ) (visitor : Visitor ι ν σ) (calm : σ → Prop) :
    Prop :=
  ∀ r (world : World ι σ), calm world.platform → ∃ run,
    (platform.react r world.platform).follow visitor world.embedders = some run ∧
      calm run.world.platform

/-- With callbacks that may nest this deep, every request comes to an end, whatever state the
platform is in. -/
def Platform.ResponsiveWithin [DecidableEq ι] (platform : Platform ι ν σ) (depth : σ → Nat) :
    Prop :=
  ∀ state, ∃ calm : σ → Prop, calm state ∧ platform.Responsive (platform.visit (depth state)) calm

/-- A program comes to an end if all requests do. -/
theorem Program.exists_run {platform : Platform ι ν σ} {visitor : Visitor ι ν σ} {calm : σ → Prop}
    (responsive : platform.Responsive visitor calm) (p : Program α) {world : World ι σ}
    (healthy : calm world.platform) :
    ∃ run, p.run platform visitor world = some run ∧ calm run.world.platform := by
  induction p generalizing world with
  | finish ending => exact ⟨_, rfl, healthy⟩
  | report line rest ih =>
    obtain ⟨run, ran, kept⟩ := ih healthy
    exact ⟨_, congrArg (Option.map _) ran, kept⟩
  | request r next ih =>
    obtain ⟨⟨visits, ending, after⟩, reacted, kept⟩ := responsive r world healthy
    rw [Program.run, reacted]
    -- The program goes on only if the request was answered, and then from a state of this kind.
    cases ending with
    | returned answer =>
      obtain ⟨run, ran, kept⟩ := ih answer kept
      exact ⟨_, congrArg (Option.map _) ran, kept⟩
    | unwound panic => exact ⟨_, rfl, kept⟩

namespace Platform

variable [DecidableEq ι] {platform : Platform ι ν σ} {calm : σ → Prop} {world : World ι σ}

section Embedders

variable {visitor : Visitor ι ν σ} (responsive : platform.Responsive visitor calm)
  (healthy : calm world.platform)
include responsive healthy

/-- The handling of an event comes to an end. -/
theorem exists_process (e : ι) (event : Event) :
    ∃ run, platform.process visitor e event world = some run ∧ calm run.world.platform := by
  unfold Platform.process
  split
  · exact ⟨_, rfl, healthy⟩
  · next win _ =>
    split
    · exact ⟨_, rfl, healthy⟩
    · have flagged : calm (world.setProcessing e true).platform := healthy
      obtain ⟨run, ran, kept⟩ :=
        Program.exists_run responsive ((world.embedders e).respond win) flagged
      exact ⟨_, congrArg (Option.map _) ran, kept⟩

/-- So does the handling of an event together with the handing on of it. -/
theorem exists_activating (e : ι) (event : Event) :
    ∃ visit ending world',
      platform.activating visitor e event world = some (visit, ending, world') ∧
        calm world'.platform := by
  obtain ⟨⟨handling, ending, after⟩, processed, kept⟩ := exists_process responsive healthy e event
  rw [Platform.activating, processed]
  cases ending with
  | unwound panic => exact ⟨_, _, _, rfl, kept⟩
  | returned outcome =>
    obtain ⟨run, ran, kept⟩ :=
      Program.exists_run responsive ((after.embedders e).handOn event outcome) kept
    exact ⟨_, _, _, congrArg (Option.map _) ran, kept⟩

/-- And so does the end of an installation. -/
theorem exists_uninstall (e : ι) :
    ∃ run, platform.uninstall visitor e world = some run ∧ calm run.world.platform :=
  Program.exists_run responsive (world.embedders e).uninstall healthy

end Embedders

/-- Every operation comes to an end. -/
theorem exists_operate {depth : Nat} (responsive : platform.Responsive (platform.visit depth) calm)
    (healthy : calm world.platform) (operation : Operation ι) :
    ∃ record world', platform.operate depth operation world = some (record, world') ∧
      calm world'.platform := by
  cases operation with
  | create e options =>
    obtain ⟨run, ran, kept⟩ := exists_uninstall responsive healthy e
    exact ⟨_, _, congrArg (Option.map _) ran, kept⟩
  | install e host =>
    obtain ⟨⟨acts, ending, after⟩, ran, kept⟩ :=
      Program.exists_run responsive ((world.embedders e).install host) healthy
    cases ending with
    | returned result => exact ⟨_, _, congrArg (Option.map _) ran, kept⟩
    | unwound panic => exact ⟨_, _, congrArg (Option.map _) ran, kept⟩
  | uninstall e =>
    obtain ⟨run, ran, kept⟩ := exists_uninstall responsive healthy e
    exact ⟨_, _, congrArg (Option.map _) ran, kept⟩
  | drop e =>
    obtain ⟨run, ran, kept⟩ := exists_uninstall responsive healthy e
    exact ⟨_, _, congrArg (Option.map _) ran, kept⟩
  | process e event =>
    obtain ⟨run, ran, kept⟩ := exists_process responsive healthy e event
    exact ⟨_, _, congrArg (Option.map _) ran, kept⟩
  | activating e event =>
    obtain ⟨visit, ending, world', ran, kept⟩ := exists_activating responsive healthy e event
    exact ⟨_, _, congrArg (Option.map _) ran, kept⟩

end Platform

end PlotEmbedding
