import PlotEmbedding.Proofs.Conduct

/-!
# Responses to activations

What an embedder does about the activation of a window, told by the acts of a run.
`Program.Allows.of_bind` takes a run of two programs in a row apart, and
`Program.Allows.answered` says that every request but the one that cuts a run short is answered. The
rest is read off step by step: `Embedder.embed_allows` says that an embedding makes the requests of
`Embedder.steps`, up to its end or to a panic, and `Embedder.responds_of_allows` lists the ways in
which a response can go.
-/

namespace PlotEmbedding

variable {ι ν σ α β : Type}

/-- The requests among the acts that were answered, in order. -/
def Act.answered : List (Act ι ν) → List Request
  | [] => []
  | .report _ :: rest => answered rest
  | .call request _ (.returned _) :: rest => request :: answered rest
  | .call _ _ (.unwound _) :: rest => answered rest

theorem Act.requests_append (first later : List (Act ι ν)) :
    requests (first ++ later) = requests first ++ requests later := by
  induction first with
  | nil => rfl
  | cons act rest ih =>
    cases act with
    | report line => exact ih
    | call request visits ending => exact congrArg (request :: ·) ih

@[simp] theorem Act.requests_reports (lines : List Report) :
    requests (lines.map (Act.report : Report → Act ι ν)) = [] := by
  induction lines with
  | nil => rfl
  | cons line rest ih => exact ih

namespace Program

/-! ## Runs of programs in a row -/

/-- A run of two programs in a row is a run of the first and then one of the second, unless the
first unwinds. -/
theorem Allows.of_bind {p : Program α} {f : α → Program β} {acts : List (Act ι ν)}
    {ending : Ending β} (run : (p >>= f).Allows acts ending) :
    (∃ a first later, p.Allows first (.returned a) ∧ (f a).Allows later ending ∧
      acts = first ++ later) ∨
    ∃ panic, p.Allows acts (.unwound panic) ∧ ending = .unwound panic := by
  rw [bind_eq] at run
  -- The acts of the first program are peeled off, up to its end or to the panic.
  induction p generalizing acts with
  | finish ended =>
    cases ended with
    | returned a => exact .inl ⟨a, [], acts, .finish _, run, rfl⟩
    | unwound panic =>
      cases run
      exact .inr ⟨panic, .finish _, rfl⟩
  | report line rest ih =>
    cases run with
    | report run =>
      rcases ih run with ⟨a, first, later, done, left, rfl⟩ | ⟨panic, lost, rfl⟩
      · exact .inl ⟨a, _, later, .report done, left, rfl⟩
      · exact .inr ⟨panic, .report lost, rfl⟩
  | request r next ih =>
    cases run with
    | answered run =>
      rcases ih _ run with ⟨a, first, later, done, left, rfl⟩ | ⟨panic, lost, rfl⟩
      · exact .inl ⟨a, _, later, .answered done, left, rfl⟩
      · exact .inr ⟨panic, .answered lost, rfl⟩
    | cutShort => exact .inr ⟨_, .cutShort, rfl⟩

/-- Every request of a run is answered but one that cuts the run short, which is the last. -/
theorem Allows.answered_or {p : Program α} {acts : List (Act ι ν)} {ending : Ending α}
    (run : p.Allows acts ending) :
    Act.answered acts = Act.requests acts ∨
    ∃ last panic, Act.answered acts ++ [last] = Act.requests acts ∧ ending = .unwound panic := by
  induction run with
  | finish ending => exact .inl rfl
  | report _ ih => exact ih
  | @answered r next visits answer acts ending _ ih =>
    rcases ih with all | ⟨last, panic, all_but, rfl⟩
    · exact .inl (congrArg (r :: ·) all)
    · exact .inr ⟨last, panic, congrArg (r :: ·) all_but, rfl⟩
  | @cutShort r next visits panic => exact .inr ⟨r, panic, rfl, rfl⟩

/-- A change of a window is one request, whether it works or not. -/
theorem attempt_allows {mutation : Mutation} {acts : List (Act ι ν)} {ending : Ending Unit}
    (run : (attempt mutation).Allows acts ending) : Act.requests acts = [.mutate mutation] := by
  cases run with
  | @answered _ _ visits answer rest _ run =>
    cases answer with
    | ok value =>
      cases run
      rfl
    | error failure =>
      cases run with
      | report run =>
        cases run
        rfl
  | cutShort => rfl

/-- The size of the host takes one request, and the arithmetic on the answer may unwind. -/
theorem hostSize_allows {host : Handle} {acts : List (Act ι ν)} {ending : Ending Size}
    (run : (hostSize host).Allows acts ending) : Act.requests acts = [.clientArea host] := by
  cases run with
  | @answered _ _ visits answer rest _ run =>
    cases answer with
    | ok area =>
      cases run
      rfl
    | error failure =>
      cases run with
      | report run =>
        cases run
        rfl
  | cutShort => rfl

/-- The class of a window takes one request. The window bears the class if the answer is that very
name. -/
theorem bearsClass_allows {plotClass : String} {win : Handle} {acts : List (Act ι ν)}
    {ending : Ending Bool} (run : (bearsClass plotClass win).Allows acts ending) :
    (∃ visits,
      acts = [.call (.className win classNameCapacity) visits (.returned (.ok plotClass))] ∧
      ending = .returned true) ∨
    (∃ visits answer lines, answer ≠ .ok plotClass ∧
      acts = .call (.className win classNameCapacity) visits (.returned answer) ::
        List.map .report lines ∧
      ending = .returned false) ∨
    ∃ visits panic, acts = [.call (.className win classNameCapacity) visits (.unwound panic)] ∧
      ending = .unwound panic := by
  cases run with
  | @answered _ _ visits answer rest _ run =>
    cases answer with
    | ok name =>
      cases run
      -- Every other name counts like a failure, which has a report to it.
      by_cases same : name = plotClass
      · subst same
        exact .inl ⟨visits, rfl, by simp⟩
      · exact .inr (.inl ⟨visits, .ok name, [], by simpa using same, rfl, by simpa using same⟩)
    | error failure =>
      cases run with
      | report run =>
        cases run
        exact .inr (.inl ⟨visits, .error failure, [_], nofun, rfl, rfl⟩)
  | cutShort => exact .inr (.inr ⟨_, _, rfl, rfl⟩)

/-- The parent of a window takes one request. The window is a child of the host if the answer says
so. -/
theorem isChild_allows {host win : Handle} {acts : List (Act ι ν)} {ending : Ending Bool}
    (run : (isChild host win).Allows acts ending) :
    (∃ visits, acts = [.call (.parent win) visits (.returned (.ok (some host)))] ∧
      ending = .returned true) ∨
    (∃ visits answer, answer ≠ .ok (some host) ∧
      acts = [.call (.parent win) visits (.returned answer)] ∧ ending = .returned false) ∨
    ∃ visits panic, acts = [.call (.parent win) visits (.unwound panic)] ∧
      ending = .unwound panic := by
  cases run with
  | @answered _ _ visits answer rest _ run =>
    cases answer with
    | ok parent =>
      cases run
      by_cases same : parent = some host
      · subst same
        exact .inl ⟨visits, rfl, by simp⟩
      · exact .inr (.inl ⟨visits, .ok parent, by simpa using same, rfl, by simpa using same⟩)
    -- A parent that is not told is passed over without a report.
    | error failure =>
      cases run
      exact .inr (.inl ⟨visits, .error failure, nofun, rfl, rfl⟩)
  | cutShort => exact .inr (.inr ⟨_, _, rfl, rfl⟩)

end Program

namespace Embedder

open Program

/-! ## Embedding -/

/-- The requests by which a window is embedded in a host at a size. -/
def steps (options : Options) (host win : Handle) (size : Size) : List Request :=
  [.mutate (.setStyle win childWindowStyle), .mutate (.setExStyle win noExtendedStyle),
    .mutate (.removeMenu win), .mutate (.clearTitle win), .mutate (.setParent win host),
    .clientArea host, .mutate (.place win 0 0 size), .mutate (.postMessage host options.message)]

/-- The requests are all that are planned and the value is returned, or they are the first that are
planned and a panic follows. -/
def Fulfils (plan : List Request) (value : α) (requests : List Request) (ending : Ending α) :
    Prop :=
  (requests = plan ∧ ending = .returned value) ∨
    (requests <+: plan ∧ ∃ panic, ending = .unwound panic)

/-- Nothing is requested but what is planned. -/
theorem Fulfils.mem_plan {plan requests : List Request} {value : α} {ending : Ending α}
    (h : Fulfils plan value requests ending) : ∀ r ∈ requests, r ∈ plan := by
  rcases h with ⟨rfl, -⟩ | ⟨part, -⟩
  · exact fun r hr => hr
  · exact fun r hr => part.subset hr

/-- A change that is tried comes in front of a plan, whatever the plan depends on. -/
theorem fulfils_attempt {γ : Type} (unknown : γ) {plan : γ → List Request} {value : γ → α}
    {mutation : Mutation} {p : Program α} {acts : List (Act ι ν)} {ending : Ending α}
    (run : (attempt mutation >>= fun _ => p).Allows acts ending)
    (rest : ∀ {later : List (Act ι ν)}, p.Allows later ending →
      ∃ c, Fulfils (plan c) (value c) (Act.requests later) ending) :
    ∃ c, Fulfils (.mutate mutation :: plan c) (value c) (Act.requests acts) ending := by
  rcases run.of_bind with ⟨_, first, later, done, left, rfl⟩ | ⟨panic, lost, rfl⟩
  · rw [Act.requests_append, attempt_allows done]
    obtain ⟨c, ⟨all, returned⟩ | ⟨part, unwound⟩⟩ := rest left
    · exact ⟨c, .inl ⟨congrArg (_ :: ·) all, returned⟩⟩
    · exact ⟨c, .inr ⟨List.cons_prefix_cons.mpr ⟨rfl, part⟩, unwound⟩⟩
  · rw [attempt_allows lost]
    exact ⟨unknown, .inr ⟨List.prefix_append [_] _, panic, rfl⟩⟩

/-- An embedding makes its requests in order, each of them whatever became of the ones before, and
returns the size that the window is given. Only a panic ends it earlier. -/
theorem embed_allows {options : Options} {host win : Handle} {acts : List (Act ι ν)}
    {ending : Ending ActivationOutcome} (run : (embed options host win).Allows acts ending) :
    ∃ size, Fulfils (steps options host win size) (.embedded size) (Act.requests acts) ending := by
  refine fulfils_attempt fallbackSize run fun run => fulfils_attempt fallbackSize run fun run =>
    fulfils_attempt fallbackSize run fun run => fulfils_attempt fallbackSize run fun run =>
    fulfils_attempt fallbackSize run fun run => ?_
  rcases run.of_bind with ⟨size, first, later, done, left, rfl⟩ | ⟨panic, lost, rfl⟩
  · -- From here on the size is known.
    have placed : ∃ _ : Unit, Fulfils [.mutate (.place win 0 0 size),
        .mutate (.postMessage host options.message)] (.embedded size) (Act.requests later)
        ending := by
      refine fulfils_attempt () left fun run => fulfils_attempt () run fun run => ?_
      cases run with
      | report run =>
        cases run
        exact ⟨(), .inl ⟨rfl, rfl⟩⟩
    rw [Act.requests_append, hostSize_allows done]
    obtain ⟨-, ⟨all, returned⟩ | ⟨part, unwound⟩⟩ := placed
    · exact ⟨size, .inl ⟨congrArg (_ :: ·) all, returned⟩⟩
    · -- What was made of the plan after the size is what was made of the whole behind it.
      exact ⟨size, .inr ⟨List.cons_prefix_cons.mpr ⟨rfl, part⟩, unwound⟩⟩
  · rw [hostSize_allows lost]
    exact ⟨fallbackSize, .inr ⟨List.prefix_append [_] _, panic, rfl⟩⟩

/-! ## Responding -/

/-- The ways in which a response to an activation can go. -/
inductive Responds (e : Embedder) (win : Handle) :
    List (Act ι ν) → Ending ActivationOutcome → Prop where
  /-- The embedder is not installed. -/
  | inactive : e.installation = none → Responds e win [] (.returned .inactive)
  /-- The question about the class unwinds. -/
  | classPanic {installation : Installation} {visits : List (Visit ι ν)} {panic : String} :
      e.installation = some installation →
      Responds e win [.call (.className win classNameCapacity) visits (.unwound panic)]
        (.unwound panic)
  /-- The answer is not the configured class. -/
  | mismatch {installation : Installation} {visits : List (Visit ι ν)}
      {answer : Except Failure String} {lines : List Report} :
      e.installation = some installation → answer ≠ .ok e.options.plotClass →
      Responds e win
        (.call (.className win classNameCapacity) visits (.returned answer) ::
          List.map .report lines)
        (.returned .classMismatch)
  /-- The question about the parent unwinds. -/
  | parentPanic {installation : Installation} {visits visits' : List (Visit ι ν)} {panic : String} :
      e.installation = some installation →
      Responds e win
        [.call (.className win classNameCapacity) visits (.returned (.ok e.options.plotClass)),
          .call (.parent win) visits' (.unwound panic)]
        (.unwound panic)
  /-- The window is a child of the host. -/
  | already {installation : Installation} {visits visits' : List (Visit ι ν)} :
      e.installation = some installation →
      Responds e win
        [.call (.className win classNameCapacity) visits (.returned (.ok e.options.plotClass)),
          .call (.parent win) visits' (.returned (.ok (some installation.host)))]
        (.returned .alreadyEmbedded)
  /-- The window is not known to be a child of the host, and is embedded. -/
  | embeds {installation : Installation} {visits visits' : List (Visit ι ν)}
      {answer : Except Failure (Option Handle)} {acts : List (Act ι ν)}
      {ending : Ending ActivationOutcome} :
      e.installation = some installation → answer ≠ .ok (some installation.host) →
      (embed e.options installation.host win).Allows acts ending →
      Responds e win
        (.call (.className win classNameCapacity) visits (.returned (.ok e.options.plotClass)) ::
          .call (.parent win) visits' (.returned answer) :: acts)
        ending

/-- Every run of a response is one of these. -/
theorem responds_of_allows {e : Embedder} {win : Handle} {acts : List (Act ι ν)}
    {ending : Ending ActivationOutcome} (run : (e.respond win).Allows acts ending) :
    e.Responds win acts ending := by
  unfold respond at run
  split at run
  · next vacant =>
    cases run
    exact .inactive vacant
  · next installation installed =>
    -- First the question about the class, returned or lost, then the one about the parent.
    rcases run.of_bind with ⟨bears, first, later, asked, run, rfl⟩ | ⟨panic, lost, rfl⟩
    · rcases bearsClass_allows asked with ⟨visits, rfl, bears⟩ |
        ⟨visits, answer, lines, other, rfl, bears⟩ | ⟨_, _, _, unwound⟩
      · obtain rfl : _ = true := Ending.returned.inj bears
        rw [if_pos rfl] at run
        rcases run.of_bind with ⟨child, first, later, asked, run, rfl⟩ | ⟨panic, lost, rfl⟩
        · rcases isChild_allows asked with ⟨visits', rfl, child⟩ |
            ⟨visits', answer, other, rfl, child⟩ | ⟨_, _, _, unwound⟩
          · obtain rfl : _ = true := Ending.returned.inj child
            cases run
            exact .already installed
          · obtain rfl : _ = false := Ending.returned.inj child
            exact .embeds installed other run
          · exact nomatch unwound
        · rcases isChild_allows lost with ⟨_, _, returned⟩ | ⟨_, _, _, _, returned⟩ |
            ⟨visits', panic, rfl, unwound⟩
          · exact nomatch returned
          · exact nomatch returned
          · cases unwound
            exact .parentPanic installed
      · obtain rfl : _ = false := Ending.returned.inj bears
        cases run
        rw [List.append_nil]
        exact .mismatch installed other
      · exact nomatch unwound
    · rcases bearsClass_allows lost with ⟨_, _, returned⟩ | ⟨_, _, _, _, _, returned⟩ |
        ⟨visits, panic, rfl, unwound⟩
      · exact nomatch returned
      · exact nomatch returned
      · cases unwound
        exact .classPanic installed

/-- An embedder responds with requests only if it is installed: it asks for the class and the parent
of the window, and goes through the steps of embedding it. -/
theorem Responds.mem_steps {e : Embedder} {win : Handle} {acts : List (Act ι ν)}
    {ending : Ending ActivationOutcome} (h : e.Responds win acts ending) :
    ∀ r ∈ Act.requests acts, ∃ installation size, e.installation = some installation ∧
      r ∈ .className win classNameCapacity :: .parent win ::
        steps e.options installation.host win size := by
  intro r hr
  cases h with
  | inactive _ => exact nomatch hr
  | @classPanic installation _ _ installed =>
    have first : r = .className win classNameCapacity := List.mem_singleton.mp hr
    -- No size has been told, so any will do.
    exact ⟨installation, fallbackSize, installed, by simp [first]⟩
  | @mismatch installation _ _ lines installed _ =>
    rw [Act.requests, Act.requests_reports, List.mem_singleton] at hr
    exact ⟨installation, fallbackSize, installed, by simp [hr]⟩
  | @parentPanic installation _ _ _ installed =>
    have first : r ∈ [Request.className win classNameCapacity, .parent win] := hr
    exact ⟨installation, fallbackSize, installed, List.mem_append_left _ first⟩
  | @already installation _ _ installed =>
    have first : r ∈ [Request.className win classNameCapacity, .parent win] := hr
    exact ⟨installation, fallbackSize, installed, List.mem_append_left _ first⟩
  | @embeds installation _ _ _ acts _ installed _ run =>
    obtain ⟨size, fulfils⟩ := embed_allows run
    refine ⟨installation, size, installed, ?_⟩
    have all : r ∈ .className win classNameCapacity :: .parent win :: Act.requests acts := hr
    rw [List.mem_cons, List.mem_cons] at all ⊢
    exact all.imp_right (Or.imp_right (fulfils.mem_plan r))

end Embedder

end PlotEmbedding
