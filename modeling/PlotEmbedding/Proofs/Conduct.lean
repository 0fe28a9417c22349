import PlotEmbedding.Run

/-!
# The conduct of programs

A program leaves open what the platform answers, and so it has many runs. `Program.Allows` relates a
program to the acts and the ending of each of them: an act for every report and request on the way,
up to the end of the program or to the first request that unwinds. `Program.Asks` is the property
that every request of a program, whatever was answered before, satisfies a predicate, and
`Program.Asks.requests` carries it over to the acts of a run.

The second part says for each program of an embedder what it may do. `Embedder.Handles` and
`Embedder.HandsOn` are the two halves of dealing with an event, and `Embedder.Installs` lists the
ways in which an installation can go.
-/

namespace PlotEmbedding

variable {ι ν σ α β : Type}

/-- The requests among the acts, in order, without those that callbacks make meanwhile. -/
def Act.requests : List (Act ι ν) → List Request
  | [] => []
  | .report _ :: rest => requests rest
  | .call request _ _ :: rest => request :: requests rest

namespace Program

/-! ## Programs as a monad -/

theorem bind_eq (p : Program α) (f : α → Program β) : p >>= f = p.bind f := rfl

/-- Going on with nothing changes nothing. -/
theorem bind_finish (p : Program α) :
    (p.bind fun a => .finish (.returned a)) = p := by
  induction p with
  | finish ending => cases ending <;> rfl
  | report line rest ih => rw [bind, ih]
  | request r next ih =>
    rw [bind]
    congr 1
    funext answer
    exact ih answer

/-- It does not matter how steps in a row are grouped. -/
theorem bind_bind {γ : Type} (p : Program α) (f : α → Program β) (g : β → Program γ) :
    (p.bind f).bind g = p.bind fun a => (f a).bind g := by
  induction p with
  | finish ending => cases ending <;> rfl
  | report line rest ih => rw [bind, bind, bind, ih]
  | request r next ih =>
    rw [bind, bind, bind]
    congr 1
    funext answer
    exact ih answer

instance : LawfulMonad Program :=
  LawfulMonad.mk' Program bind_finish (fun _ _ => rfl) bind_bind

/-! ## Runs of a program -/

/-- The acts and the ending are those of a run of the program. -/
inductive Allows : Program α → List (Act ι ν) → Ending α → Prop where
  /-- The program ends. -/
  | finish (ending : Ending α) : Allows (.finish ending) [] ending
  /-- A report is made. -/
  | report {line : Report} {rest : Program α} {acts : List (Act ι ν)} {ending : Ending α} :
      Allows rest acts ending → Allows (.report line rest) (.report line :: acts) ending
  /-- A request is answered, and the program goes on with the answer. -/
  | answered {r : Request} {next : r.Answer → Program α} {visits : List (Visit ι ν)}
      {answer : r.Answer} {acts : List (Act ι ν)} {ending : Ending α} :
      Allows (next answer) acts ending →
      Allows (.request r next) (.call r visits (.returned answer) :: acts) ending
  /-- A request unwinds, and the program with it. -/
  | cutShort {r : Request} {next : r.Answer → Program α} {visits : List (Visit ι ν)}
      {panic : String} :
      Allows (.request r next) [.call r visits (.unwound panic)] (.unwound panic)

/-- Every request of the program satisfies `P`, whatever is answered. -/
def Asks (P : Request → Prop) : Program α → Prop
  | .finish _ => True
  | .report _ rest => rest.Asks P
  | .request r next => P r ∧ ∀ answer, (next answer).Asks P

variable {P : Request → Prop}

@[simp] theorem asks_pure (a : α) : (pure a : Program α).Asks P := trivial

/-- A request alone satisfies what it satisfies. -/
@[simp] theorem asks_ask (r : Request) : (ask r).Asks P ↔ P r :=
  ⟨And.left, fun h => ⟨h, fun _ => trivial⟩⟩

@[simp] theorem asks_say (line : Report) : (say line).Asks P := trivial

/-- Requests in a row satisfy `P` if those of each part do. -/
theorem Asks.bind {p : Program α} {f : α → Program β} (hp : p.Asks P) (hf : ∀ a, (f a).Asks P) :
    (p >>= f).Asks P := by
  rw [bind_eq]
  induction p with
  | finish ending =>
    cases ending with
    | returned a => exact hf a
    | unwound panic => trivial
  | report line rest ih => exact ih hp
  | request r next ih => exact ⟨hp.1, fun answer => ih answer (hp.2 answer)⟩

/-- The requests that a run makes are requests of the program. -/
theorem Asks.requests {p : Program α} (hp : p.Asks P) {acts : List (Act ι ν)} {ending : Ending α}
    (run : p.Allows acts ending) : ∀ r ∈ Act.requests acts, P r := by
  induction run with
  | finish ending => simp [Act.requests]
  | report _ ih => exact ih hp
  | answered _ ih =>
    intro r hr
    rcases List.mem_cons.mp hr with rfl | hr
    · exact hp.1
    · exact ih (hp.2 _) r hr
  | cutShort =>
    intro r hr
    rw [Act.requests, Act.requests, List.mem_singleton] at hr
    exact hr ▸ hp.1

/-- Every value that the program returns satisfies `Q`, whatever is answered. -/
def Returns (Q : α → Prop) : Program α → Prop
  | .finish (.returned a) => Q a
  | .finish (.unwound _) => True
  | .report _ rest => rest.Returns Q
  | .request _ next => ∀ answer, (next answer).Returns Q

variable {Q : α → Prop}

/-- A value alone satisfies what it satisfies. -/
@[simp] theorem returns_pure (a : α) : (pure a : Program α).Returns Q ↔ Q a := Iff.rfl

/-- What comes last decides what is returned. -/
theorem Returns.bind {p : Program β} {f : β → Program α} (hf : ∀ b, (f b).Returns Q) :
    (p >>= f).Returns Q := by
  rw [bind_eq]
  induction p with
  | finish ending =>
    cases ending with
    | returned b => exact hf b
    | unwound panic => trivial
  | report line rest ih => exact ih
  | request r next ih => exact fun answer => ih answer

/-- A run that returns returns a value of the program. -/
theorem Returns.of_allows {p : Program α} (hp : p.Returns Q) {acts : List (Act ι ν)}
    {ending : Ending α} (run : p.Allows acts ending) : ∀ a, ending = .returned a → Q a := by
  induction run with
  | finish ending =>
    rintro a rfl
    exact hp
  | report _ ih => exact ih hp
  | answered _ ih => exact ih (hp _)
  | cutShort => exact fun a h => nomatch h

end Program

/-- A request about a window that is being embedded, or about its host. -/
def Request.OnWindow : Request → Prop
  | className _ _ => True
  | parent _ => True
  | clientArea _ => True
  | mutate _ => True
  | isWindow _ => False
  | installHook => False
  | removeHook _ => False
  | forward _ _ => False

/-- A request that hands an event on. -/
def Request.IsForward : Request → Prop
  | forward _ _ => True
  | _ => False

/-- A request about a window hands no event on. -/
theorem Request.OnWindow.not_isForward {r : Request} (h : r.OnWindow) : ¬ r.IsForward := by
  cases r <;> simp_all [OnWindow, IsForward]

/-- An event that announces an activation has the code for it. -/
theorem Event.code_of_activating? {event : Event} {win : Handle}
    (h : event.activating? = some win) : event.code = activationCode := by
  rw [activating?] at h
  split at h
  · assumption
  · exact nomatch h

namespace Embedder

open Program

/-! ## The parts of a response -/

/-- The changes by which a window is embedded in a host at a size, in order. -/
def changes (options : Options) (host win : Handle) (size : Size) : List Mutation :=
  [.setStyle win childWindowStyle, .setExStyle win noExtendedStyle, .removeMenu win,
    .clearTitle win, .setParent win host, .place win 0 0 size, .postMessage host options.message]

/-- A property of programs that the parts of a response have. Programs in a row have it if each of
them does. -/
structure Parts (e : Embedder) (win : Handle) (C : ∀ ⦃α : Type⦄, Program α → Prop) : Prop where
  pure : ∀ ⦃α : Type⦄ (a : α), C (pure a)
  bind : ∀ ⦃α β : Type⦄ ⦃p : Program α⦄ ⦃f : α → Program β⦄, C p → (∀ a, C (f a)) → C (p >>= f)
  bearsClass : C (bearsClass e.options.plotClass win)
  isChild : ∀ host, C (isChild host win)
  attempt : ∀ host size, ∀ change ∈ changes e.options host win size, C (attempt change)
  hostSize : ∀ host, C (hostSize host)
  embedded : ∀ host size, C (say (.embedded win host size))

section Parts

variable {e : Embedder} {win : Handle} {C : ∀ ⦃α : Type⦄, Program α → Prop}

/-- An embedding is made of these parts. -/
theorem Parts.embed (parts : e.Parts win C) (host : Handle) : C (embed e.options host win) := by
  -- The changes in front of the size are the same for every size.
  have early : ∀ change ∈ (changes e.options host win fallbackSize).take 5,
      C (Program.attempt change) :=
    fun change among => parts.attempt host _ change (List.mem_of_mem_take among)
  refine parts.bind (early _ (by simp [changes])) fun _ =>
    parts.bind (early _ (by simp [changes])) fun _ =>
    parts.bind (early _ (by simp [changes])) fun _ =>
    parts.bind (early _ (by simp [changes])) fun _ =>
    parts.bind (early _ (by simp [changes])) fun _ =>
    parts.bind (parts.hostSize host) fun size => ?_
  have late : ∀ change ∈ changes e.options host win size, C (Program.attempt change) :=
    parts.attempt host size
  exact parts.bind (late _ (by simp [changes])) fun _ =>
    parts.bind (late _ (by simp [changes])) fun _ =>
    parts.bind (parts.embedded host size) fun _ => parts.pure _

/-- So is a response, whatever the state of the embedder. -/
theorem Parts.respond (parts : e.Parts win C) : C (e.respond win) := by
  unfold Embedder.respond
  split
  · exact parts.pure _
  · next installation _ =>
    refine parts.bind parts.bearsClass fun bears => ?_
    split
    · refine parts.bind (parts.isChild installation.host) fun child => ?_
      split
      · exact parts.pure _
      · exact parts.embed installation.host
    · exact parts.pure _

end Parts

/-- Each part of a response asks once, so it is enough to look at the requests. -/
theorem parts_asks {e : Embedder} {win : Handle} {P : Request → Prop}
    (className : P (.className win classNameCapacity)) (parent : P (.parent win))
    (clientArea : ∀ host, P (.clientArea host))
    (mutate : ∀ host size, ∀ change ∈ changes e.options host win size, P (.mutate change)) :
    e.Parts win fun _ p => p.Asks P where
  pure _ a := asks_pure a
  bind _ _ _ _ := Asks.bind
  bearsClass := ⟨className, fun answer => by cases answer <;> trivial⟩
  isChild _ := ⟨parent, fun answer => by cases answer <;> trivial⟩
  attempt host size change among :=
    ⟨mutate host size change among, fun answer => by cases answer <;> trivial⟩
  hostSize host := ⟨clientArea host, fun answer => by cases answer <;> trivial⟩
  embedded _ _ := trivial

/-! ## Dealing with events -/

/-- Responding to an activation asks about the window and its host only. -/
theorem respond_asks (e : Embedder) (win : Handle) : (e.respond win).Asks Request.OnWindow :=
  (parts_asks trivial trivial (fun _ => trivial) fun _ _ _ _ => trivial).respond

/-- An embedder that responds does not say that it was busy. -/
theorem respond_returns (e : Embedder) (win : Handle) :
    (e.respond win).Returns (· ≠ .reentrant) := by
  unfold respond
  split
  · exact (returns_pure _).mpr nofun
  · refine Returns.bind fun bears => ?_
    split
    · refine Returns.bind fun child => ?_
      split
      · exact (returns_pure _).mpr nofun
      · -- What the steps of an embedding return does not matter, only what comes last.
        iterate 8 refine Returns.bind fun _ => ?_
        exact Returns.bind fun _ => (returns_pure _).mpr nofun
    · exact (returns_pure _).mpr nofun

/-- The acts and the outcome are those of the embedder as it handles an event. -/
inductive Handles (e : Embedder) (event : Event) :
    List (Act ι ν) → Ending ActivationOutcome → Prop where
  /-- The event announces no activation. -/
  | other : event.activating? = none → Handles e event [] (.returned .notActivation)
  /-- The embedder deals with another activation. -/
  | refused {win : Handle} : event.activating? = some win → e.processing = true →
      Handles e event [] (.returned .reentrant)
  /-- The embedder responds. -/
  | responds {win : Handle} {acts : List (Act ι ν)} {ending : Ending ActivationOutcome} :
      event.activating? = some win → e.processing = false → (e.respond win).Allows acts ending →
      Handles e event acts ending

/-- The acts and the ending are those of the embedder as it hands an event on after handling it. -/
inductive HandsOn (e : Embedder) (event : Event) :
    Ending ActivationOutcome → List (Act ι ν) → Ending Int64 → Prop where
  /-- The handling unwound. -/
  | unwound (panic : String) : HandsOn e event (.unwound panic) [] (.unwound panic)
  /-- The handling returned. -/
  | returned {outcome : ActivationOutcome} {acts : List (Act ι ν)} {ending : Ending Int64} :
      (e.handOn event outcome).Allows acts ending →
      HandsOn e event (.returned outcome) acts ending

variable {e : Embedder} {event : Event}

/-- While it handles an event an embedder asks about windows only. -/
theorem Handles.requests {acts : List (Act ι ν)} {ending : Ending ActivationOutcome}
    (h : e.Handles event acts ending) : ∀ r ∈ Act.requests acts, r.OnWindow := by
  cases h with
  | other _ => simp [Act.requests]
  | refused _ _ => simp [Act.requests]
  | responds _ _ run => exact (e.respond_asks _).requests run

/-- Handing an event on asks for nothing else. -/
theorem handOn_asks (e : Embedder) (event : Event) (outcome : ActivationOutcome) :
    (e.handOn event outcome).Asks Request.IsForward := by
  unfold handOn
  split
  · exact Asks.bind (asks_say _) fun _ => (asks_ask _).mpr trivial
  · exact (asks_ask _).mpr trivial

/-- An embedder that hands an event on asks for nothing else. -/
theorem HandsOn.requests {outcome : Ending ActivationOutcome} {acts : List (Act ι ν)}
    {ending : Ending Int64} (h : e.HandsOn event outcome acts ending) :
    ∀ r ∈ Act.requests acts, r.IsForward := by
  cases h with
  | unwound panic => simp [Act.requests]
  | returned run => exact (e.handOn_asks _ _).requests run

/-- An activation is refused if and only if the embedder deals with another one. -/
theorem Handles.reentrant_iff {acts : List (Act ι ν)} {ending : Ending ActivationOutcome}
    (h : e.Handles event acts ending) :
    ending = .returned .reentrant ↔ event.code = activationCode ∧ e.processing = true := by
  cases h with
  | other other =>
    refine ⟨nofun, fun h => ?_⟩
    rw [Event.activating?, if_pos h.1] at other
    exact nomatch other
  | refused activated busy =>
    exact ⟨fun _ => ⟨Event.code_of_activating? activated, busy⟩, fun _ => rfl⟩
  | responds activated idle run =>
    refine ⟨fun h => ?_, fun h => ?_⟩
    · exact absurd rfl ((e.respond_returns _).of_allows run _ h)
    · rw [idle] at h
      exact nomatch h.2

/-- Handing on is one request, after a report or none, and ends as the request does. -/
theorem handOn_allows {outcome : ActivationOutcome} {acts : List (Act ι ν)}
    {ending : Ending Int64} (run : (e.handOn event outcome).Allows acts ending) :
    ∃ (lines : List Report) (visits : List (Visit ι ν)), acts =
      lines.map .report ++ [.call (.forward e.hook? event) visits ending] := by
  -- Nothing follows on the request, so it ends as the whole does.
  have last : ∀ {acts : List (Act ι ν)},
      (ask (.forward e.hook? event)).Allows acts ending →
      ∃ visits, acts = [.call (.forward e.hook? event) visits ending] := by
    intro acts run
    cases run with
    | answered run => cases run; exact ⟨_, rfl⟩
    | cutShort => exact ⟨_, rfl⟩
  unfold handOn at run
  split at run
  · cases run with
    | report run =>
      obtain ⟨visits, rfl⟩ := last run
      exact ⟨[_], visits, rfl⟩
  · obtain ⟨visits, rfl⟩ := last run
    exact ⟨[], visits, rfl⟩

/-! ## Installing and uninstalling -/

/-- Releasing an installation is one request. A failure of it is reported, a panic cuts the release
short. -/
theorem uninstall_allows {acts : List (Act ι ν)} {ending : Ending Bool}
    (run : e.uninstall.Allows acts ending) :
    (e.installation = none ∧ acts = [] ∧ ending = .returned false) ∨
    (∃ installation visits panic, e.installation = some installation ∧
      acts = [.call (.removeHook installation.hook) visits (.unwound panic)] ∧
      ending = .unwound panic) ∨
    ∃ installation visits answer lines, e.installation = some installation ∧
      acts = .call (.removeHook installation.hook) visits (.returned answer) ::
        List.map .report lines ∧
      ending = .returned true := by
  unfold uninstall at run
  split at run
  · next installation installed =>
    simp only [Installation.release] at run
    right
    cases run with
    | @answered _ _ visits answer acts _ run =>
      right
      -- Whether the release failed shows in the reports only.
      cases answer with
      | ok value =>
        cases run with
        | report run => cases run; exact ⟨_, _, _, [_], installed, rfl, rfl⟩
      | error failure =>
        cases run with
        | report run =>
          cases run with
          | report run => cases run; exact ⟨_, _, _, [_, _], installed, rfl, rfl⟩
    | cutShort => exact .inl ⟨_, _, _, installed, rfl, rfl⟩
  · next vacant =>
    left
    cases run
    exact ⟨vacant, rfl, rfl⟩

/-- The ways in which an installation can go. -/
inductive Installs (e : Embedder) (host : Handle) :
    List (Act ι ν) → Ending (Except Failure InstallOutcome × Embedder) → Prop where
  /-- The embedder is installed already. -/
  | already {installation : Installation} : e.installation = some installation →
      Installs e host [.report (.alreadyInstalled installation.host installation.hook)]
        (.returned (.ok .alreadyInstalled, e))
  /-- The host is the null handle. -/
  | null : e.installation = none → host.isNull = true →
      Installs e host [.report (.invalidHost host)] (.returned (.ok .invalidHost, e))
  /-- The host is no window. -/
  | noWindow {visits : List (Visit ι ν)} : e.installation = none → host.isNull = false →
      Installs e host
        [.call (.isWindow host) visits (.returned false), .report (.invalidHost host)]
        (.returned (.ok .invalidHost, e))
  /-- The check of the host unwinds. -/
  | windowPanic {visits : List (Visit ι ν)} {panic : String} :
      e.installation = none → host.isNull = false →
      Installs e host [.call (.isWindow host) visits (.unwound panic)] (.unwound panic)
  /-- The hook is registered. -/
  | registered {visits visits' : List (Visit ι ν)} {hook : Hook} :
      e.installation = none → host.isNull = false →
      Installs e host
        [.call (.isWindow host) visits (.returned true),
          .call .installHook visits' (.returned (.ok hook)),
          .report (.installed host hook e.options.plotClass)]
        (.returned (.ok .installed, { e with installation := some ⟨host, hook⟩ }))
  /-- The registration fails, which is an error for a strict embedder. -/
  | failed {visits visits' : List (Visit ι ν)} {failure : Failure} :
      e.installation = none → host.isNull = false → e.options.strict = true →
      Installs e host
        [.call (.isWindow host) visits (.returned true),
          .call .installHook visits' (.returned (.error failure))]
        (.returned (.error (.embedding (.hookRegistration failure.message)), e))
  /-- The registration fails, which is an outcome for any other embedder. -/
  | skipped {visits visits' : List (Visit ι ν)} {failure : Failure} :
      e.installation = none → host.isNull = false → e.options.strict = false →
      Installs e host
        [.call (.isWindow host) visits (.returned true),
          .call .installHook visits' (.returned (.error failure)),
          .report (.registrationFailed failure)]
        (.returned (.ok .registrationFailed, e))
  /-- The registration unwinds. -/
  | hookPanic {visits visits' : List (Visit ι ν)} {panic : String} :
      e.installation = none → host.isNull = false →
      Installs e host
        [.call (.isWindow host) visits (.returned true),
          .call .installHook visits' (.unwound panic)]
        (.unwound panic)

/-- Every run of an installation is one of these. -/
theorem installs_of_allows {host : Handle} {acts : List (Act ι ν)}
    {ending : Ending (Except Failure InstallOutcome × Embedder)}
    (run : (e.install host).Allows acts ending) : e.Installs host acts ending := by
  unfold install at run
  split at run
  · next installation installed =>
    cases run with
    | report run => cases run; exact .already installed
  · next vacant =>
    -- The null handle is told without a question, and every other host is asked about first.
    unfold isHost at run
    cases null : host.isNull with
    | true =>
      simp only [null, if_true, pure_bind] at run
      cases run with
      | report run => cases run; exact .null vacant null
    | false =>
      simp only [null, Bool.false_eq_true, if_false] at run
      cases run with
      | cutShort => exact .windowPanic vacant null
      | @answered _ _ visits answer acts _ run =>
        cases answer with
        | false =>
          cases run with
          | report run => cases run; exact .noWindow vacant null
        | true =>
          simp only [register] at run
          cases run with
          | cutShort => exact .hookPanic vacant null
          | @answered _ _ visits' answer acts _ run =>
            cases answer with
            | ok hook =>
              cases run with
              | report run => cases run; exact .registered vacant null
            | error failure =>
              simp only at run
              split at run
              · next strict => cases run; exact .failed vacant null strict
              · next lenient =>
                cases run with
                | report run =>
                  cases run
                  exact .skipped vacant null (by simpa using lenient)

end Embedder

end PlotEmbedding
