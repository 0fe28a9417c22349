import PlotEmbedding.Proofs.Admission
import PlotEmbedding.Proofs.ToldFailures

/-!
# The steps of an embedding

Once a window is admitted, nothing but a panic keeps an embedder from going through all steps of the
embedding. Each step is one request. A change that is refused is reported and skipped, and so is a
question about the client area of the host, which then counts as one of the fallback size.

`Embedder.Pursues` tells the acts of an embedding by the steps that are left of it, with one case
for each thing that can happen at a step. `Embedder.embed_allows_iff` says that these are exactly
the runs of the program, so that every combination of answers is among them, and `Embedding` is what
follows from that for the requests, the reports and the outcome.
-/

namespace PlotEmbedding

variable {ι ν σ γ : Type}

/-! ## Answers to steps -/

/-- The size that the host has by the answer to the question about its client area. -/
def sizeTold : Except Failure Area → Ending Size
  | .ok area => area.fillSize
  | .error _ => .returned fallbackSize

namespace Request

/-- If the answer is about the client area of the host, the host has this size by it. -/
def Gives (size : Size) : (r : Request) → r.Answer → Prop
  | clientArea _, answer => sizeTold answer = .returned size
  | _, _ => True

/-- The report of a step that failed. -/
def complaint? : (r : Request) → r.Answer → Option Report
  | mutate mutation, .error failure => some (.stepFailed mutation failure)
  | clientArea host, .error failure => some (.areaUnknown host failure)
  | _, _ => none

/-- An answer that upsets an embedding is no failure. -/
theorem Upsets.silent {panic : String} {r : Request} {answer : r.Answer}
    (h : r.Upsets panic answer) : r.complaint? answer = none := by
  cases r with
  | clientArea host =>
    cases answer with
    | ok area => rfl
    | error failure => exact h.elim
  | _ => exact h.elim

/-- It is a client area without a size. -/
theorem upsets_iff {panic : String} {host : Handle} {answer : Except Failure Area} :
    (clientArea host).Upsets panic answer ↔ sizeTold answer = .unwound panic := by
  cases answer with
  | ok area => exact Iff.rfl
  | error failure => exact ⟨False.elim, nofun⟩

end Request

namespace Act

/-- The report that is due because the act is a step that failed. -/
def complaint? : Act ι ν → Option Report
  | .call r _ (.returned answer) => r.complaint? answer
  | _ => none

/-- The act does not unwind, and if it is the answer about the client area of the host, the host has
this size by it. -/
def Gives (size : Size) : Act ι ν → Prop
  | .report _ => True
  | .call r _ (.returned answer) => r.Gives size answer
  | .call _ _ (.unwound _) => False

/-- The act unwinds with this panic: the platform does, or it tells a client area without a size. -/
def Panics (panic : String) : Act ι ν → Prop
  | .report _ => False
  | .call r _ (.returned answer) => r.Upsets panic answer
  | .call _ _ (.unwound told) => told = panic

@[simp] theorem lines_reports (lines : List Report) :
    (lines.map (Act.report : Report → Act ι ν)).filterMap line? = lines := by
  rw [List.filterMap_map]
  exact List.filterMap_some

@[simp] theorem complaints_reports (lines : List Report) :
    (lines.map (Act.report : Report → Act ι ν)).filterMap complaint? = [] := by
  rw [List.filterMap_map]
  exact List.filterMap_eq_nil_iff.mpr fun _ _ => rfl

/-- An act that unwinds fits no size. -/
theorem Panics.not_gives {act : Act ι ν} {panic : String} (h : act.Panics panic) (size : Size) :
    ¬ act.Gives size := by
  intro gives
  cases act with
  | report line => exact h
  | call r visits told =>
    cases told with
    | unwound _ => exact gives
    | returned answer =>
      have upsets : r.Upsets panic answer := h
      have gives : r.Gives size answer := gives
      -- Only a client area can upset an embedder, and then it gives no size.
      cases r with
      | clientArea host => exact nomatch gives.symm.trans (Request.upsets_iff.mp upsets)
      | _ => exact upsets

/-- An act unwinds with one panic. -/
theorem Panics.unique {act : Act ι ν} {panic panic' : String} (h : act.Panics panic)
    (h' : act.Panics panic') : panic = panic' := by
  cases act with
  | report line => exact h.elim
  | call r visits told =>
    cases told with
    | unwound _ => exact h.symm.trans h'
    | returned answer =>
      have upsets : r.Upsets panic answer := h
      have upsets' : r.Upsets panic' answer := h'
      cases r with
      | clientArea host =>
        have told := Request.upsets_iff.mp upsets
        exact Ending.unwound.inj (told.symm.trans (Request.upsets_iff.mp upsets'))
      | _ => exact upsets.elim

/-- The answer to a request among acts that fit a size fits the size. -/
theorem exists_tells {acts : List (Act ι ν)} {size : Size} {r : Request}
    (asked : r ∈ requests acts) (fits : ∀ act ∈ acts, act.Gives size) :
    ∃ answer, Tells acts r answer ∧ r.Gives size answer := by
  induction acts with
  | nil => exact nomatch asked
  | cons act rest ih =>
    obtain ⟨first, later⟩ := List.forall_mem_cons.mp fits
    have onward : r ∈ requests rest →
        ∃ answer, Tells (act :: rest) r answer ∧ r.Gives size answer := by
      intro asked
      obtain ⟨answer, ⟨visits, among⟩, gives⟩ := ih asked later
      exact ⟨answer, ⟨visits, List.mem_cons_of_mem _ among⟩, gives⟩
    cases act with
    | report line => exact onward asked
    | call r' visits told =>
      rcases List.mem_cons.mp asked with rfl | asked
      · cases told with
        | returned answer => exact ⟨answer, ⟨visits, List.mem_cons_self⟩, first⟩
        -- An act that unwinds gives no size, so this one was answered.
        | unwound panic => exact first.elim
      · exact onward asked

end Act

namespace Program

variable {α : Type}

/-- To make reports first is to have them in front of a run. -/
theorem allows_reports {p : Program α} {lines : List Report} {acts : List (Act ι ν)}
    {ending : Ending α} : (lines.foldr report p).Allows acts ending ↔
      ∃ later, p.Allows later ending ∧ acts = lines.map .report ++ later := by
  induction lines generalizing acts with
  | nil => exact ⟨fun run => ⟨acts, run, rfl⟩, fun ⟨_, run, same⟩ => same ▸ run⟩
  | cons line rest ih =>
    constructor
    · intro run
      cases run with
      | report run =>
        obtain ⟨later, left, rfl⟩ := ih.mp run
        exact ⟨later, left, rfl⟩
    · rintro ⟨later, run, rfl⟩
      exact .report (ih.mpr ⟨later, run, rfl⟩)

/-- To try a change is to ask for it and to report that it failed. -/
theorem attempt_bind (mutation : Mutation) (p : Program α) :
    (attempt mutation >>= fun _ => p) = request (.mutate mutation) fun answer =>
      ((Request.mutate mutation).complaint? answer).toList.foldr report p := by
  refine congrArg (request _) (funext fun answer => ?_)
  cases answer <;> rfl

/-- To find out the size of the host is to ask for its client area and to report that this failed.
-/
theorem hostSize_bind (host : Handle) (f : Size → Program α) :
    (hostSize host >>= f) = request (.clientArea host) fun answer =>
      ((Request.clientArea host).complaint? answer).toList.foldr report
        (finish (sizeTold answer) >>= f) := by
  refine congrArg (request _) (funext fun answer => ?_)
  cases answer <;> rfl

end Program

namespace Embedder

open Program

/-! ## Pursuing a plan -/

/-- What an embedder does, and what comes of it, when these steps of embedding a window at a size
are left. -/
inductive Pursues (host win : Handle) (size : Size) :
    List Request → List (Act ι ν) → Ending ActivationOutcome → Prop where
  /-- The window is embedded. -/
  | done : Pursues host win size [] [.report (.embedded win host size)] (.returned (.embedded size))
  /-- The step is answered, a failure of it is reported, and the next step follows. -/
  | answered {r : Request} {visits : List (Visit ι ν)} {answer : r.Answer} {plan : List Request}
      {acts : List (Act ι ν)} {ending : Ending ActivationOutcome} :
      r.Gives size answer → Pursues host win size plan acts ending →
      Pursues host win size (r :: plan)
        (.call r visits (.returned answer) ::
          ((r.complaint? answer).toList.map .report ++ acts)) ending
  /-- The host turns out to have no size. -/
  | upset {r : Request} {visits : List (Visit ι ν)} {answer : r.Answer} {plan : List Request}
      {panic : String} : r.Upsets panic answer →
      Pursues host win size (r :: plan) [.call r visits (.returned answer)] (.unwound panic)
  /-- The platform panics. -/
  | cutShort {r : Request} {visits : List (Visit ι ν)} {plan : List Request} {panic : String} :
      Pursues host win size (r :: plan) [.call r visits (.unwound panic)] (.unwound panic)

section Pursues

variable {host win : Handle} {size : Size} {plan : List Request} {acts : List (Act ι ν)}
  {ending : Ending ActivationOutcome}

/-- Requests are made in the order of the plan, each of them once. -/
theorem Pursues.requests_front (h : Pursues host win size plan acts ending) :
    Act.requests acts <+: plan := by
  induction h with
  | done => exact List.nil_prefix
  | answered _ _ ih =>
    rw [Act.requests, Act.requests_append, Act.requests_reports]
    exact List.cons_prefix_cons.mpr ⟨rfl, ih⟩
  | upset _ => exact List.prefix_append [_] _
  | cutShort => exact List.prefix_append [_] _

/-- What is said are the failures of the steps, and at the end that the window is embedded. -/
theorem Pursues.lines (h : Pursues host win size plan acts ending) :
    acts.filterMap Act.line? = acts.filterMap Act.complaint? ++
      if ending.unwinds then [] else [.embedded win host size] := by
  induction h with
  | done => rfl
  | @answered r visits answer plan acts ending _ _ ih =>
    have first : Act.complaint? (.call r visits (.returned answer)) = r.complaint? answer := rfl
    rw [List.filterMap_cons, List.filterMap_append, List.filterMap_cons, List.filterMap_append,
      Act.lines_reports, Act.complaints_reports, ih, first]
    cases r.complaint? answer <;> rfl
  | upset upsets => simp [Act.line?, Act.complaint?, upsets.silent, Ending.unwinds]
  | cutShort => rfl

/-- Either every act fits the size and the whole plan is carried out, or the last act unwinds and
those before it fit the size. -/
theorem Pursues.complete_or_cut (h : Pursues host win size plan acts ending) :
    ((∀ act ∈ acts, act.Gives size) ∧ Act.requests acts = plan ∧
      ending = .returned (.embedded size)) ∨
    ∃ before last panic, acts = before ++ [last] ∧ (∀ act ∈ before, act.Gives size) ∧
      last.Panics panic ∧ ending = .unwound panic := by
  induction h with
  | done => exact .inl ⟨List.forall_mem_singleton.mpr trivial, rfl, rfl⟩
  | @answered r visits answer plan acts ending gives _ ih =>
    -- What is reported on an answer asks for nothing, and so it fits any size.
    have first : ∀ act ∈ Act.call r visits (.returned answer) ::
        (r.complaint? answer).toList.map Act.report, act.Gives size :=
      List.forall_mem_cons.mpr ⟨gives, List.forall_mem_map.mpr fun _ _ => trivial⟩
    rcases ih with ⟨all, made, returned⟩ | ⟨before, last, panic, rfl, all, panics, unwound⟩
    · refine .inl ⟨List.forall_mem_append.mpr ⟨first, all⟩, ?_, returned⟩
      rw [Act.requests, Act.requests_append, Act.requests_reports, List.nil_append, made]
    · refine .inr ⟨_ ++ before, last, panic, ?_, List.forall_mem_append.mpr ⟨first, all⟩, panics,
        unwound⟩
      rw [List.append_assoc, List.cons_append]
  | upset upsets => exact .inr ⟨[], _, _, rfl, List.forall_mem_nil _, upsets, rfl⟩
  | cutShort => exact .inr ⟨[], _, _, rfl, List.forall_mem_nil _, rfl, rfl⟩

end Pursues

/-! ## The runs of an embedding -/

section Enacts

variable {host win : Handle} {p : Program ActivationOutcome}

/-- The runs of the program are those that pursue one of the plans. -/
def Enacts (ι ν : Type) (host win : Handle) (size : γ → Size) (plan : γ → List Request)
    (p : Program ActivationOutcome) : Prop :=
  ∀ (acts : List (Act ι ν)) (ending : Ending ActivationOutcome),
    p.Allows acts ending ↔ ∃ c, Pursues host win (size c) (plan c) acts ending

/-- To try a change is a step of a plan. -/
theorem Enacts.attempt [Nonempty γ] {size : γ → Size} {plan : γ → List Request}
    (h : Enacts ι ν host win size plan p) (mutation : Mutation) :
    Enacts ι ν host win size (fun c => .mutate mutation :: plan c)
      (attempt mutation >>= fun _ => p) := by
  intro acts ending
  rw [attempt_bind]
  constructor
  · intro run
    cases run with
    | answered run =>
      obtain ⟨later, left, rfl⟩ := allows_reports.mp run
      obtain ⟨c, pursues⟩ := (h _ _).mp left
      exact ⟨c, .answered trivial pursues⟩
    | cutShort => exact ⟨Classical.arbitrary γ, .cutShort⟩
  · -- A change has no answer that could upset the embedder.
    rintro ⟨c, pursues⟩
    cases pursues with
    | answered _ later => exact .answered (allows_reports.mpr ⟨_, (h _ _).mpr ⟨c, later⟩, rfl⟩)
    | upset upsets => exact upsets.elim
    | cutShort => exact .cutShort

/-- To ask for the client area of the host is the step that settles the size. -/
theorem Enacts.hostSize {plan : Size → List Request} {f : Size → Program ActivationOutcome}
    (h : ∀ size, Enacts ι ν host win (fun _ : Unit => size) (fun _ => plan size) (f size)) :
    Enacts ι ν host win id (fun size => .clientArea host :: plan size)
      (Program.hostSize host >>= f) := by
  intro acts ending
  rw [hostSize_bind]
  constructor
  · intro run
    cases run with
    | @answered _ _ visits answer _ _ run =>
      obtain ⟨later, left, rfl⟩ := allows_reports.mp run
      -- The answer settles the size for the rest of the plan, or unwinds.
      cases told : sizeTold answer with
      | returned size =>
        rw [told] at left
        obtain ⟨_, pursues⟩ := (h _ _ _).mp left
        exact ⟨size, .answered told pursues⟩
      | unwound panic =>
        rw [told] at left
        cases left
        have upsets : (Request.clientArea host).Upsets panic answer := Request.upsets_iff.mpr told
        rw [upsets.silent]
        exact ⟨fallbackSize, .upset upsets⟩
    | cutShort => exact ⟨fallbackSize, .cutShort⟩
  · rintro ⟨size, pursues⟩
    cases pursues with
    | answered gives later =>
      refine .answered (allows_reports.mpr ⟨_, ?_, rfl⟩)
      rw [show sizeTold _ = _ from gives]
      exact (h _ _ _).mpr ⟨(), later⟩
    | upset upsets =>
      refine .answered (allows_reports.mpr ⟨[], ?_, ?_⟩)
      · rw [Request.upsets_iff.mp upsets]
        exact .finish _
      · rw [upsets.silent]
        rfl
    | cutShort => exact .cutShort

/-- The report at the end concludes a plan. -/
theorem enacts_embedded (size : Size) :
    Enacts ι ν host win (fun _ : Unit => size) (fun _ => [])
      (do say (.embedded win host size); return .embedded size) := by
  intro acts ending
  constructor
  · intro run
    cases run with
    | report run =>
      cases run
      exact ⟨(), .done⟩
  · rintro ⟨_, pursues⟩
    cases pursues
    exact .report (.finish _)

/-- The runs of an embedding are those that pursue its steps. -/
theorem embed_allows_iff {options : Options} {acts : List (Act ι ν)}
    {ending : Ending ActivationOutcome} :
    (embed options host win).Allows acts ending ↔
      ∃ size, Pursues host win size (steps options host win size) acts ending := by
  have : Nonempty Size := ⟨fallbackSize⟩
  have late : ∀ size, Enacts ι ν host win (fun _ : Unit => size)
      (fun _ => [.mutate (.place win 0 0 size), .mutate (.postMessage host options.message)]) _ :=
    fun size => ((enacts_embedded size).attempt (.postMessage host options.message)).attempt
      (.place win 0 0 size)
  exact (((((Enacts.hostSize late).attempt (.setParent win host)).attempt
    (.clearTitle win)).attempt (.removeMenu win)).attempt
    (.setExStyle win noExtendedStyle)).attempt (.setStyle win childWindowStyle) acts ending

end Enacts

end Embedder

/-! ## The main result -/

/-- What follows for an embedding of the window in the host. -/
structure Embedding (options : Options) (host win : Handle) (acts : List (Act ι ν))
    (ending : Ending ActivationOutcome) : Prop where
  /-- If nothing unwinds, all steps are made in order, each of them once, and the size is the one
  that the host has by the answer about its client area. The failures are reported one by one, and
  at last that the window is embedded. -/
  complete : (∀ act ∈ acts, ∀ panic, ¬ act.Panics panic) → ∃ size answer,
    Act.Tells acts (.clientArea host) answer ∧ sizeTold answer = .returned size ∧
    Act.requests acts = Embedder.steps options host win size ∧
    ending = .returned (.embedded size) ∧
    acts.filterMap Act.line? = acts.filterMap Act.complaint? ++ [.embedded win host size]
  /-- An act that unwinds is the last. The requests up to it are the first steps, and the failures
  among them are reported. -/
  cut : ∀ before last after panic, acts = before ++ last :: after → last.Panics panic →
    after = [] ∧ ending = .unwound panic ∧
    acts.filterMap Act.line? = acts.filterMap Act.complaint? ∧
    ∃ size, Act.requests acts <+: Embedder.steps options host win size ∧
      ∀ answer, Act.Tells before (.clientArea host) answer → sizeTold answer = .returned size

/-- Every run of an embedding is one. -/
theorem Embedder.embedding_of_allows {options : Options} {host win : Handle}
    {acts : List (Act ι ν)} {ending : Ending ActivationOutcome}
    (run : (embed options host win).Allows acts ending) :
    Embedding options host win acts ending := by
  obtain ⟨size, pursues⟩ := embed_allows_iff.mp run
  have lines := pursues.lines
  constructor
  · intro calm
    rcases pursues.complete_or_cut with ⟨fits, made, rfl⟩ | ⟨before, last, panic, rfl, -, panics, -⟩
    · have asked : .clientArea host ∈ Act.requests acts := by simp [made, steps]
      obtain ⟨answer, tells, gives⟩ := Act.exists_tells asked fits
      exact ⟨size, answer, tells, gives, made, rfl, lines⟩
    · -- The last act would have unwound, but nothing did.
      exact absurd panics (calm last (List.mem_append_right _ List.mem_cons_self) panic)
  · rintro before last after panic rfl panics
    have unfit : ¬ last.Gives size := panics.not_gives size
    rcases pursues.complete_or_cut with
      ⟨fits, -, -⟩ | ⟨before', last', panic', cut, fits, panics', rfl⟩
    · exact absurd (fits last (List.mem_append_right _ List.mem_cons_self)) unfit
    · rcases List.eq_nil_or_concat after with rfl | ⟨later, final, rfl⟩
      · obtain ⟨rfl, same⟩ := List.append_inj' cut rfl
        cases same
        cases panics.unique panics'
        refine ⟨rfl, rfl, lines.trans (List.append_nil _), size, pursues.requests_front, ?_⟩
        rintro answer ⟨visits, among⟩
        exact fits _ among
      · -- All acts but the last one fit the size, and so would this one.
        rw [List.concat_eq_append, ← List.cons_append, ← List.append_assoc] at cut
        obtain ⟨rfl, -⟩ := List.append_inj' cut rfl
        exact absurd (fits last (List.mem_append_right _ List.mem_cons_self)) unfit

/-- Nothing unwinds in an embedding that returns. -/
theorem Embedding.calm {options : Options} {host win : Handle} {acts : List (Act ι ν)}
    {outcome : ActivationOutcome} {ending : Ending ActivationOutcome}
    (h : Embedding options host win acts ending) (returned : ending = .returned outcome) :
    ∀ act ∈ acts, ∀ panic, ¬ act.Panics panic := by
  intro act among panic panics
  obtain ⟨before, after, cut⟩ := List.append_of_mem among
  obtain ⟨-, lost, -⟩ := h.cut before act after panic cut panics
  exact nomatch returned.symm.trans lost

namespace Platform

variable [DecidableEq ι] {platform : Platform ι ν σ} {depth : Nat} {e : ι} {event : Event}
  {world : World ι σ} {host win : Handle}

/-- Whatever fails, a window that is admitted is embedded: the embedder goes through all steps, in
order and each of them once, and only a panic of the platform or of the arithmetic on the client
area of the host cuts it short. What failed is reported step by step. -/
theorem embeds_whatever_fails (announced : event.activating? = some win)
    (free : (world.embedders e).processing = false)
    (installed : (world.embedders e).host? = some host) :
    (∀ run rest, platform.process (platform.visit depth) e event world = some run →
      Act.Admits (world.embedders e).options.plotClass host win run.trace rest →
      Embedding (world.embedders e).options host win rest run.ending) ∧
    (∀ calm, platform.Responsive (platform.visit depth) calm → calm world.platform →
      ∃ run, platform.process (platform.visit depth) e event world = some run) ∧
    ∀ size, (Embedder.steps (world.embedders e).options host win size).map (·.kind.name) =
        ["set_style", "set_ex_style", "remove_menu", "clear_title", "set_parent", "client_rect",
          "place", "post_message"] ∧
      (∀ mutation failure, (Report.stepFailed mutation failure).level = .debug ∧
        (Report.stepFailed mutation failure).message =
          "embed: " ++ (Request.mutate mutation).kind.name ++ " failed: " ++ failure.message) ∧
      (Report.embedded win host size).level = .debug ∧
      (Report.embedded win host size).message = "embed: win: " ++ win.text ++ ", host: " ++
        host.text ++ ", w: " ++ size.width.toInt.repr ++ ", h: " ++ size.height.toInt.repr := by
  refine ⟨fun run rest processed admits => ?_, fun calm responsive healthy => ?_,
    fun size => ⟨rfl, fun _ _ => ⟨rfl, rfl⟩, rfl, rfl⟩⟩
  · have response :=
      Embedder.responds_of_allows (respond_allows_of_process announced free processed)
    exact Embedder.embedding_of_allows (response.embed_of_admits installed admits)
  · obtain ⟨run, processed, -⟩ := exists_process responsive healthy e event
    exact ⟨run, processed⟩

end Platform

namespace Desktop

/-- On the barren desktop all eight steps are made in vain, the host has the fallback size, and the
seven changes that failed are reported, as is the question about the client area. -/
theorem embeds_whatever_fails_of_barren : ∃ run rest,
    platform.process (platform.visit 0) 0 (.activation ⟨2⟩) barren = some run ∧
    Act.Admits "GraphApp" ⟨1⟩ ⟨2⟩ run.trace rest ∧
    Act.requests rest = Embedder.steps {} ⟨1⟩ ⟨2⟩ fallbackSize ∧
    (rest.filterMap Act.line?).length = 9 := by
  have announced : Event.activating? (.activation ⟨2⟩) = some ⟨2⟩ := rfl
  have installed : (barren.embedders 0).host? = some ⟨1⟩ := rfl
  obtain ⟨run, processed⟩ :=
    (Platform.embeds_whatever_fails announced rfl installed).2.1 _ (responsive 0) (Nat.le_refl 0)
  have ran : ((platform.process (platform.visit 0) 0 (.activation ⟨2⟩) barren).map fun run =>
      (run.ending, (run.trace.filterMap Act.line?).length)) =
        some (.returned (.embedded fallbackSize), 9) := by
    decide +kernel
  rw [processed] at ran
  obtain ⟨ending, nine⟩ := Prod.mk.inj (Option.some.inj ran)
  -- The window is embedded in the end, so it has passed the filter before.
  have filtered := Embedder.filtered_of_respond installed
    (Platform.respond_allows_of_process announced rfl processed)
  obtain ⟨⟨rest, admits⟩, -⟩ := filtered.embedded_iff.mp ⟨_, ending⟩
  have embedding :=
    (Platform.embeds_whatever_fails announced rfl installed).1 run rest processed admits
  obtain ⟨size, answer, -, -, made, returned, -⟩ := embedding.complete (embedding.calm ending)
  cases ending.symm.trans returned
  refine ⟨run, rest, processed, admits, made, ?_⟩
  obtain ⟨visits, visits', answer, -, acts⟩ := admits
  rw [acts] at nine
  exact nine

end Desktop

end PlotEmbedding
