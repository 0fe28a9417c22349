import PlotEmbedding.Proofs.ClassFilter
import PlotEmbedding.Proofs.Composure

/-!
# The admission of windows

Five things keep an embedder from touching a window: the event is about no activation, the embedder
is busy, it has no host, the window is not of its class, or it is a child of the host already. They
are looked at in this order, and the last two take an answer of the platform each, which may also be
a failure or a panic. `Filtered` says how the acts and the outcome of an installed embedder follow
from these two answers, and `Act.Admits` is what has happened by the time that the embedding begins.

`Handling.Gated` says of any invocation that it changes nothing before the window was admitted. It
is read off the state in which the invocation began, which is the one from before the operation,
since an embedder that is in any other state does nothing about an event: this is `Roster.Rests`. So
`Platform.filters_activations` holds of whole histories, with all that is nested in them.

On a responsive platform the handling comes to an end besides, by `Platform.exists_process`.
-/

namespace PlotEmbedding

variable {ι ν σ α : Type}

/-! ## What unwinds -/

/-- An area without a size has a panic for its size. -/
theorem Request.exists_upsets {r : Request} {answer : r.Answer} (h : r.sized answer = false) :
    ∃ panic, r.Upsets panic answer := by
  cases r with
  | clientArea host =>
    cases answer with
    | error failure => cases h
    | ok area =>
      cases size : area.fillSize with
      | returned size =>
        rw [Request.sized, size] at h
        cases h
      | unwound panic => exact ⟨panic, size⟩
  | _ => cases h

namespace Program

/-- A request that unwinds is the last, and the run unwinds with it. -/
theorem Allows.last_of_unwound {p : Program α} {acts before after : List (Act ι ν)}
    {ending : Ending α} {r : Request} {visits : List (Visit ι ν)} {panic : String}
    (run : p.Allows acts ending) (cut : acts = before ++ .call r visits (.unwound panic) :: after) :
    after = [] ∧ ending = .unwound panic := by
  induction run generalizing before with
  | finish ending => exact nomatch (List.append_eq_nil_iff.mp cut.symm).2
  | report _ ih =>
    cases before with
    | nil => cases cut
    | cons first before => exact ih (List.cons.inj cut).2
  | answered _ ih =>
    cases before with
    | nil => cases cut
    | cons first before => exact ih (List.cons.inj cut).2
  | cutShort =>
    cases before with
    | nil =>
      cases cut
      exact ⟨rfl, rfl⟩
    | cons first before => exact nomatch (List.append_eq_nil_iff.mp (List.cons.inj cut).2.symm).2

/-- Nothing unwinds in the acts of a run that returns. -/
theorem Heeds.untroubled {p : Program α} (heeds : p.Heeds) {acts : List (Act ι ν)} {value : α}
    (run : p.Allows acts (.returned value)) : ∀ act ∈ acts, act.untroubled = true := by
  generalize returned : Ending.returned value = ending at run
  induction run with
  | finish ending => exact List.forall_mem_nil _
  | report _ ih => exact List.forall_mem_cons.mpr ⟨rfl, ih heeds returned⟩
  | @answered r next visits answer acts ending run ih =>
    obtain ⟨later, upset⟩ := heeds answer
    refine List.forall_mem_cons.mpr ⟨?_, ih later returned⟩
    by_contra unsized
    obtain ⟨panic, upsets⟩ := Request.exists_upsets (Bool.not_eq_true _ ▸ unsized)
    rw [upset panic upsets] at run
    cases run
    cases returned
  | cutShort => cases returned

end Program

/-! ## The filter -/

/-- The embedder was told that the window is of the configured class, and then was told anything but
that the window is a child of the host. What it did after that is the rest. -/
def Act.Admits (plotClass : String) (host win : Handle) (acts rest : List (Act ι ν)) : Prop :=
  ∃ visits visits' answer, answer ≠ .ok (some host) ∧
    acts = .call (.className win classNameCapacity) visits (.returned (.ok plotClass)) ::
      .call (.parent win) visits' (.returned answer) :: rest

/-- How what an installed embedder does about an activated window, and what comes of it, follows
from what it is told of the class and of the parent of the window. -/
structure Filtered (options : Options) (host win : Handle) (acts : List (Act ι ν))
    (ending : Ending ActivationOutcome) : Prop where
  /-- The class is asked for first. -/
  class_first : ∃ visits told rest,
    acts = .call (.className win classNameCapacity) visits told :: rest
  /-- A failure, and any other class, leaves it at that. -/
  mismatch : ∀ visits answer rest,
    acts = .call (.className win classNameCapacity) visits (.returned answer) :: rest →
    answer ≠ .ok options.plotClass → Act.requests rest = [] ∧ ending = .returned .classMismatch
  /-- The parent is asked for next if the class is the configured one, and only then. -/
  parent_iff : ∀ visits told rest,
    acts = .call (.className win classNameCapacity) visits told :: rest →
    (told = .returned (.ok options.plotClass) ↔
      ∃ visits' told' later, rest = .call (.parent win) visits' told' :: later)
  /-- A window that is told to be a child of the host is left as it is. -/
  already : ∀ visits visits' later,
    acts = .call (.className win classNameCapacity) visits (.returned (.ok options.plotClass)) ::
      .call (.parent win) visits' (.returned (.ok (some host))) :: later →
    later = [] ∧ ending = .returned .alreadyEmbedded
  /-- On any other answer, a failure included, the embedding begins, and nothing else can come of
  it. -/
  begins : ∀ rest, Act.Admits options.plotClass host win acts rest →
    (∃ visits told later,
      rest = .call (.mutate (.setStyle win childWindowStyle)) visits told :: later) ∧
    ((∃ size, ending = .returned (.embedded size)) ∨ ∃ panic, ending = .unwound panic)
  /-- Nothing is changed before that, and then only by the steps of embedding this window. -/
  admitted : ∀ mutation, .mutate mutation ∈ Act.requests acts →
    ∃ rest size, Act.Admits options.plotClass host win acts rest ∧
      .mutate mutation ∈ Act.requests rest ∧ .mutate mutation ∈ Embedder.steps options host win size
  /-- The window is embedded if it comes to that and nothing unwinds, and only then. -/
  embedded_iff : (∃ size, ending = .returned (.embedded size)) ↔
    (∃ rest, Act.Admits options.plotClass host win acts rest) ∧ ∀ act ∈ acts, act.untroubled = true
  /-- A request that unwinds is the last. -/
  unwound : ∀ before r visits panic after,
    acts = before ++ .call r visits (.unwound panic) :: after → after = [] ∧ ending = .unwound panic

namespace Embedder

open Program

variable {x : Embedder} {win : Handle} {acts : List (Act ι ν)}
  {ending : Ending ActivationOutcome}

/-- An embedding begins with the style. -/
theorem setStyle_of_embed {options : Options} {host : Handle}
    (run : (embed options host win).Allows acts ending) : ∃ visits told later,
      acts = .call (.mutate (.setStyle win childWindowStyle)) visits told :: later := by
  cases run with
  | answered _ => exact ⟨_, _, _, rfl⟩
  | cutShort => exact ⟨_, _, _, rfl⟩

/-- An embedding that returns has embedded the window. -/
theorem embed_returns (options : Options) (host win : Handle) :
    (embed options host win).Returns fun outcome => ∃ size, outcome = .embedded size := by
  unfold embed
  iterate 5 refine Returns.bind fun _ => ?_
  refine Returns.bind fun size => ?_
  iterate 3 refine Returns.bind fun _ => ?_
  exact (returns_pure _).mpr ⟨size, rfl⟩

variable {rest : List (Act ι ν)}

/-- The class of the window is asked for first. -/
theorem Responds.class_first {host : Handle} (h : x.Responds win acts ending)
    (installed : x.host? = some host) : ∃ visits told rest,
      acts = .call (.className win classNameCapacity) visits told :: rest := by
  cases h with
  | inactive vacant =>
    rw [host?, vacant] at installed
    cases installed
  | _ => exact ⟨_, _, _, rfl⟩

/-- The configured class, and no other answer, leads to the question about the parent. -/
theorem Responds.parent_iff {visits : List (Visit ι ν)}
    {told : Ending (Request.className win classNameCapacity).Answer}
    (h : x.Responds win (.call (.className win classNameCapacity) visits told :: rest) ending) :
    told = .returned (.ok x.options.plotClass) ↔
      ∃ visits' told' later, rest = .call (.parent win) visits' told' :: later := by
  cases h with
  | classPanic _ => simp
  | @mismatch _ _ _ lines _ other =>
    cases lines <;> simp [other]
  | parentPanic _ => simp
  | already _ => simp
  | embeds _ _ _ => simp

/-- A window that is told to be a child of the host is left as it is. -/
theorem Responds.already_of_child {host : Handle} {visits visits' : List (Visit ι ν)}
    (h : x.Responds win
      (.call (.className win classNameCapacity) visits (.returned (.ok x.options.plotClass)) ::
        .call (.parent win) visits' (.returned (.ok (some host))) :: rest) ending)
    (installed : x.host? = some host) : rest = [] ∧ ending = .returned .alreadyEmbedded := by
  generalize child : Act.call (.parent win) visits' (.returned (.ok (some host))) :: rest = later
    at h
  cases h with
  | mismatch _ other => exact absurd rfl other
  | parentPanic _ => cases child
  | already _ =>
    cases child
    exact ⟨rfl, rfl⟩
  | embeds installed' other _ =>
    cases child
    rw [host?, installed'] at installed
    exact absurd (congrArg Except.ok installed.symm) other

/-- On any other answer about the parent the window is embedded. -/
theorem Responds.embed_of_admits {host : Handle} (h : x.Responds win acts ending)
    (installed : x.host? = some host) (admits : Act.Admits x.options.plotClass host win acts rest) :
    (embed x.options host win).Allows rest ending := by
  obtain ⟨visits, visits', answer, other, rfl⟩ := admits
  generalize child : Act.call (.parent win) visits' (.returned answer) :: rest = later at h
  cases h with
  | mismatch _ other => exact absurd rfl other
  | parentPanic _ => cases child
  | already installed' =>
    cases child
    rw [host?, installed'] at installed
    exact absurd (congrArg Except.ok installed) other
  | embeds installed' _ run =>
    cases child
    rw [host?, installed'] at installed
    cases installed
    exact run

/-- A response that does not come to an embedding changes nothing. -/
theorem Responds.admits_or_quiet {host : Handle} (h : x.Responds win acts ending)
    (installed : x.host? = some host) :
    (∃ rest, Act.Admits x.options.plotClass host win acts rest ∧
      ∀ mutation, .mutate mutation ∈ Act.requests acts → .mutate mutation ∈ Act.requests rest) ∨
    (∀ mutation, .mutate mutation ∉ Act.requests acts) ∧
      ∀ size, ending ≠ .returned (.embedded size) := by
  cases h with
  | inactive _ => exact .inr ⟨nofun, nofun⟩
  | classPanic _ => exact .inr ⟨by simp [Act.requests], nofun⟩
  | mismatch _ _ => exact .inr ⟨by simp [Act.requests], nofun⟩
  | parentPanic _ => exact .inr ⟨by simp [Act.requests], nofun⟩
  | already _ => exact .inr ⟨by simp [Act.requests], nofun⟩
  | embeds installed' other _ =>
    rw [host?, installed'] at installed
    cases installed
    exact .inl ⟨_, ⟨_, _, _, other, rfl⟩, by simp [Act.requests]⟩

/-- An embedding returns the size of the window, or unwinds. -/
theorem embedded_or_unwound {options : Options} {host : Handle}
    (run : (embed options host win).Allows acts ending) :
    (∃ size, ending = .returned (.embedded size)) ∨ ∃ panic, ending = .unwound panic := by
  cases ending with
  | returned outcome =>
    obtain ⟨size, rfl⟩ := (embed_returns options host win).of_allows run outcome rfl
    exact .inl ⟨size, rfl⟩
  | unwound panic => exact .inr ⟨panic, rfl⟩

/-- An installed embedder responds through the filter. -/
theorem filtered_of_respond {host : Handle} (installed : x.host? = some host)
    (run : (x.respond win).Allows acts ending) :
    Filtered x.options host win acts ending where
  class_first := (responds_of_allows run).class_first installed
  mismatch := by
    rintro visits answer rest rfl other
    exact (responds_of_allows run).passes_iff.2 other
  parent_iff := by
    rintro visits told rest rfl
    exact (responds_of_allows run).parent_iff
  already := by
    rintro visits visits' rest rfl
    exact (responds_of_allows run).already_of_child installed
  begins rest admits := by
    have embeds := (responds_of_allows run).embed_of_admits installed admits
    exact ⟨setStyle_of_embed embeds, embedded_or_unwound embeds⟩
  admitted mutation asked := by
    rcases (responds_of_allows run).admits_or_quiet installed with
      ⟨rest, admits, among⟩ | ⟨quiet, -⟩
    · obtain ⟨size, fulfils⟩ :=
        embed_allows ((responds_of_allows run).embed_of_admits installed admits)
      have asked := among mutation asked
      exact ⟨rest, size, admits, asked, fulfils.mem_plan _ asked⟩
    · exact absurd asked (quiet mutation)
  embedded_iff := by
    constructor
    · rintro ⟨size, rfl⟩
      rcases (responds_of_allows run).admits_or_quiet installed with ⟨rest, admits, -⟩ | ⟨-, quiet⟩
      · exact ⟨⟨rest, admits⟩, (x.heeds_respond win).untroubled run⟩
      · exact absurd rfl (quiet size)
    · rintro ⟨⟨rest, admits⟩, untroubled⟩
      have embeds := (responds_of_allows run).embed_of_admits installed admits
      have returned := run.returns (x.steady_respond win) untroubled
      refine (embedded_or_unwound embeds).resolve_right ?_
      rintro ⟨panic, rfl⟩
      cases returned
  unwound _ _ _ _ _ := run.last_of_unwound

/-- An embedder that is free responds to an activation. -/
theorem Handles.allows_of_free {event : Event} (h : x.Handles event acts ending)
    (announced : event.activating? = some win) (free : x.processing = false) :
    (x.respond win).Allows acts ending := by
  cases h with
  | other other => cases other.symm.trans announced
  | refused _ busy => cases busy.symm.trans free
  | responds announced' _ run =>
    cases announced'.symm.trans announced
    exact run

/-- An embedder that is busy or not installed does nothing about an event. -/
theorem Handles.nothing_of_idle {event : Event} (h : x.Handles event acts ending)
    (idle : x.processing = true ∨ x.installation = none) :
    acts = [] ∧ ∀ size, ending ≠ .returned (.embedded size) := by
  cases h with
  | other _ => exact ⟨rfl, nofun⟩
  | refused _ _ => exact ⟨rfl, nofun⟩
  | responds _ free run =>
    rcases idle with busy | vacant
    · exact absurd (free.symm.trans busy) Bool.false_ne_true
    · rw [respond, vacant] at run
      cases run
      exact ⟨rfl, nofun⟩

/-- A handling in which anything is done is one of an installed embedder, and goes through the
filter. -/
theorem Handles.filtered_of_acts {event : Event} (h : x.Handles event acts ending)
    (busy : acts ≠ [] ∨ ∃ size, ending = .returned (.embedded size)) :
    ∃ host, event.code = activationCode ∧ x.host? = some host ∧
      Filtered x.options host ⟨event.wparam.toInt64⟩ acts ending := by
  -- An embedder that does something is neither busy nor without a host.
  have active : ¬ (x.processing = true ∨ x.installation = none) := by
    intro idle
    obtain ⟨nothing, quiet⟩ := h.nothing_of_idle idle
    rcases busy with acted | ⟨size, embedded⟩
    · exact acted nothing
    · exact quiet size embedded
  obtain ⟨installation, installed⟩ := Option.ne_none_iff_exists'.mp (not_or.mp active).2
  have hosted : x.host? = some installation.host := congrArg (Option.map _) installed
  cases h with
  | other _ => simp at busy
  | refused _ _ => simp at busy
  | responds activated _ run =>
    have code := Event.code_of_activating? activated
    rw [Event.activating?, if_pos code] at activated
    cases activated
    exact ⟨installation.host, code, hosted, filtered_of_respond hosted run⟩

end Embedder

/-- The embedder handles the activation of a window while it is installed with the host, and its
acts up to the rest are those that admit the window. -/
def Handling.Admitted (x : Embedder) (h : Handling ι ν) (host : Handle) (rest : List (Act ι ν)) :
    Prop :=
  h.event.code = activationCode ∧ x.host? = some host ∧
    Act.Admits x.options.plotClass host ⟨h.event.wparam.toInt64⟩ h.acts rest

/-- A handling changes something only after the window was admitted, and only by the steps of
embedding that window. It embeds the window if and only if it was admitted and nothing unwound. -/
def Handling.Gated (x : Embedder) (h : Handling ι ν) : Prop :=
  (∀ mutation, .mutate mutation ∈ Act.requests h.acts →
    ∃ host rest size, h.Admitted x host rest ∧ .mutate mutation ∈ Act.requests rest ∧
      .mutate mutation ∈ Embedder.steps x.options host ⟨h.event.wparam.toInt64⟩ size) ∧
  ((∃ size, h.ending = .returned (.embedded size)) ↔
    (∃ host rest, h.Admitted x host rest) ∧ ∀ act ∈ h.acts, act.untroubled = true)

/-- A handling in which nothing is done changes and embeds nothing. -/
theorem Handling.gated_of_nothing {x : Embedder} {h : Handling ι ν} (nothing : h.acts = [])
    (quiet : ∀ size, h.ending ≠ .returned (.embedded size)) : h.Gated x := by
  refine ⟨fun mutation asked => ?_, fun ⟨size, embedded⟩ => absurd embedded (quiet size), ?_⟩
  · rw [nothing] at asked
    exact nomatch asked
  · rintro ⟨⟨host, rest, -, -, visits, visits', answer, -, acts⟩, -⟩
    exact nomatch nothing.symm.trans acts

/-- A handling is gated by the state in which it begins. -/
theorem Embedder.Handles.gated {x : Embedder} {e : ι} {event : Event} {acts : List (Act ι ν)}
    {ending : Ending ActivationOutcome} (h : x.Handles event acts ending) :
    Handling.Gated x ⟨e, event, acts, ending⟩ := by
  by_cases busy : acts ≠ [] ∨ ∃ size, ending = .returned (.embedded size)
  · obtain ⟨host, code, installed, filtered⟩ := h.filtered_of_acts busy
    refine ⟨fun mutation asked => ?_, filtered.embedded_iff.trans (and_congr_left fun _ => ?_)⟩
    · obtain ⟨rest, size, admits, among, step⟩ := filtered.admitted mutation asked
      exact ⟨host, rest, size, ⟨code, installed, admits⟩, among, step⟩
    · constructor
      · rintro ⟨rest, admits⟩
        exact ⟨host, rest, code, installed, admits⟩
      · -- There is one installation only, so its host is the one that the filter is about.
        rintro ⟨host', rest, -, installed', admits⟩
        cases installed.symm.trans installed'
        exact ⟨rest, admits⟩
  · -- Nothing was done, and so there is nothing that would have to be admitted.
    obtain ⟨nothing, quiet⟩ := not_or.mp busy
    exact Handling.gated_of_nothing (not_not.mp nothing) (not_exists.mp quiet)

/-! ## All invocations of a run -/

section Runs

variable [DecidableEq ι]

/-- Every embedder is in its state from the beginning, or in one in which it does nothing about an
event. -/
def Roster.Rests (roster between : Roster ι) : Prop :=
  ∀ e, between e = roster e ∨ (between e).processing = true ∨ (between e).installation = none

/-- It stays so when an embedder begins to respond. -/
theorem Roster.Rests.busy {roster between : Roster ι} (h : roster.Rests between) (e : ι) :
    roster.Rests (between.busy e) := by
  intro name
  by_cases own : name = e
  · -- The embedder that begins is busy from now on, whatever it was.
    subst own
    exact .inr (.inl (by rw [Roster.busy, Function.update_self]))
  · rw [Roster.busy, Function.update_of_ne own]
    exact h name

omit [DecidableEq ι] in
/-- A handling is gated by the state from the beginning. -/
theorem Roster.Rests.gated {roster between : Roster ι} (rests : roster.Rests between) {e : ι}
    {event : Event} {acts : List (Act ι ν)} {ending : Ending ActivationOutcome}
    (h : (between e).Handles event acts ending) :
    Handling.Gated (roster e) ⟨e, event, acts, ending⟩ := by
  rcases rests e with same | idle
  · exact same ▸ h.gated
  · obtain ⟨nothing, quiet⟩ := h.nothing_of_idle idle
    exact Handling.gated_of_nothing nothing quiet

/-- All handlings in the course of an operation are gated by the states that the embedders had
before. -/
theorem Record.Arises.gated {roster after : Roster ι} {record : Record ι ν}
    (h : record.Arises roster after) : ∀ handling ∈ record.handlings,
      handling.Gated (roster handling.embedder) := by
  rcases h.upkeep_or_visit with
    ⟨name, acts, between, upkeep, arise, gone, kept, -⟩ | ⟨visit, rfl, arise⟩
  · -- While an embedder is created, dropped or uninstalled, it has no installation any more.
    have rests : roster.Rests between := by
      intro e
      by_cases vacated : record.vacated? = some e
      · exact .inr (.inr (gone e vacated))
      · exact .inl (kept e vacated)
    rw [Record.handlings_of_upkeep upkeep]
    exact arise.forall_handling (fun e rests => rests.busy e)
      (fun rests handles => rests.gated handles) rests
  · rw [Record.handlings, ← Visit.allHandlings_singleton]
    exact arise.forall_handling (I := roster.Rests) (fun e rests => rests.busy e)
      (fun rests handles => rests.gated handles) fun _ => .inl rfl

mutual

/-- A request that an embedder makes in handling an event is one of the acts, or belongs to a
handling in the course of them. -/
theorem Act.Arise.handling_of_asks {roster : Roster ι} {acts : List (Act ι ν)} {e name : ι}
    {part : Part} {request : Request} (h : Act.Arise roster acts)
    (asks : .asks e .handling request ∈ Act.chronicle name part acts) :
    (name = e ∧ part = .handling ∧ request ∈ Act.requests acts) ∨
      ∃ handling ∈ Act.allHandlings acts, handling.embedder = e ∧
        request ∈ Act.requests handling.acts :=
  match h with
  | .nil _ => nomatch asks
  | .report rest => rest.handling_of_asks asks
  | .call visited rest => by
    rw [Act.chronicle, Act.moments, List.mem_append, List.mem_cons, List.mem_append,
      List.mem_singleton] at asks
    rcases asks with (own | during | hears) | later
    · cases own
      exact .inl ⟨rfl, rfl, List.mem_cons_self⟩
    · obtain ⟨handling, among, own⟩ := visited.handling_of_asks during
      exact .inr ⟨handling, List.mem_append_left _ among, own⟩
    · cases hears
    · rcases rest.handling_of_asks later with ⟨same, part, asked⟩ | ⟨handling, among, own⟩
      · exact .inl ⟨same, part, List.mem_cons_of_mem _ asked⟩
      · exact .inr ⟨handling, List.mem_append_right _ among, own⟩

/-- A request that an embedder makes in handling an event belongs to one of the handlings. -/
theorem Visit.Arise.handling_of_asks {roster : Roster ι} {visits : List (Visit ι ν)} {e : ι}
    {request : Request} (h : Visit.Arise roster visits)
    (asks : .asks e .handling request ∈ Visit.chronicle visits) :
    ∃ handling ∈ Visit.allHandlings visits, handling.embedder = e ∧
      request ∈ Act.requests handling.acts :=
  match h with
  | .nil _ => nomatch asks
  | .process _ arise rest => by
    rw [Visit.chronicle, Visit.moments, List.mem_append, List.mem_cons, List.mem_append,
      List.mem_singleton] at asks
    rcases asks with (begins | during | ends) | later
    · -- Only requests are asked for, so neither end of the handling is the moment in question.
      cases begins
    · rcases arise.handling_of_asks during with ⟨rfl, -, asked⟩ | ⟨handling, among, own⟩
      · exact ⟨_, List.mem_cons_self, rfl, asked⟩
      · exact ⟨handling, List.mem_cons_of_mem _ (List.mem_append_left _ among), own⟩
    · cases ends
    · obtain ⟨handling, among, own⟩ := rest.handling_of_asks later
      exact ⟨handling, List.mem_append_right _ among, own⟩
  | .activating _ arise _ arise' rest => by
    rw [Visit.chronicle_activating, List.mem_append, List.mem_cons, List.mem_append,
      List.mem_singleton, List.mem_append] at asks
    rw [Visit.allHandlings_activating]
    rcases asks with (begins | during | ends) | onward | later
    · cases begins
    · rcases arise.handling_of_asks during with ⟨rfl, -, asked⟩ | ⟨handling, among, own⟩
      · exact ⟨_, List.mem_cons_self, rfl, asked⟩
      · exact ⟨handling, List.mem_append_left _ (List.mem_cons_of_mem _ among), own⟩
    · cases ends
    · rcases arise'.handling_of_asks onward with ⟨-, part, -⟩ | ⟨handling, among, own⟩
      · cases part
      · exact ⟨handling, List.mem_append_right _ (List.mem_append_left _ among), own⟩
    · obtain ⟨handling, among, own⟩ := rest.handling_of_asks later
      exact ⟨handling, List.mem_append_right _ (List.mem_append_right _ among), own⟩
  | .look rest => by
    exact rest.handling_of_asks ((List.mem_cons.mp asks).resolve_left nofun)
  | .note rest => rest.handling_of_asks asks

end

/-- If a change of a window is asked for at the moment, it is in handling an event. -/
def Moment.ChangesInHandling : Moment ι → Prop
  | asks _ part (.mutate _) => part = .handling
  | _ => True

/-- No change of a window is asked for in any other part of the work. -/
theorem covers_changesInHandling :
    Covers ν (fun _ : Roster ι => True) Moment.ChangesInHandling where
  busy _ _ := trivial
  begins _ _ _ := trivial
  looks _ _ := trivial
  handles _ _ := by
    refine ⟨fun r _ => ⟨?_, fun _ => trivial⟩, trivial⟩
    cases r <;> trivial
  handsOn _ handsOn r asked := by
    refine ⟨?_, fun _ => trivial⟩
    have forwards := handsOn.requests r asked
    cases r with
    | mutate mutation => exact forwards.elim
    | _ => trivial

/-- A change of a window is asked for in one of the handlings in the course of an operation. -/
theorem Record.Arises.handling_of_mutation {roster after : Roster ι} {record : Record ι ν}
    (h : record.Arises roster after) {e : ι} {part : Part} {mutation : Mutation}
    (asks : .asks e part (.mutate mutation) ∈ record.moments) :
    ∃ handling ∈ record.handlings, handling.embedder = e ∧
      .mutate mutation ∈ Act.requests handling.acts := by
  rcases h.upkeep_or_visit with
    ⟨name, acts, between, upkeep, arise, -, -, own⟩ | ⟨visit, rfl, arise⟩
  · -- Upkeep asks for no change, so the change was made in a callback.
    have unchanged : ∀ r ∈ Act.requests acts, Moment.ChangesInHandling (.asks name .upkeep r) := by
      intro r asked
      have upkeep := own r asked
      cases r with
      | mutate mutation => exact upkeep.elim
      | _ => trivial
    rw [Record.moments_of_upkeep upkeep] at asks
    obtain rfl : part = .handling := arise.forall_moment covers_changesInHandling trivial
      (fun r asked => ⟨unchanged r asked, fun _ => trivial⟩) _ asks
    rw [Record.handlings_of_upkeep upkeep]
    rcases arise.handling_of_asks asks with ⟨-, other, -⟩ | found
    · cases other
    · exact found
  · rw [Record.moments, ← Visit.chronicle_singleton] at asks
    obtain rfl : part = .handling :=
      arise.forall_moment covers_changesInHandling trivial _ asks
    rw [Record.handlings, ← Visit.allHandlings_singleton]
    exact arise.handling_of_asks asks

/-- Each record of a history came about in the states that the records before it lead to. -/
theorem Platform.History.arises_at {platform : Platform ι ν σ} {first world : World ι σ}
    {records before later : List (Record ι ν)} {record : Record ι ν}
    (history : platform.History first records world) (cut : records = before ++ record :: later) :
    ∃ middle after, platform.History first before middle ∧
      record.Arises middle.embedders after := by
  induction history generalizing later with
  | begin => exact nomatch (List.append_eq_nil_iff.mp cut.symm).2
  | shift state _ ih => exact ih cut
  | operate history operated ih =>
    rcases List.eq_nil_or_concat later with rfl | ⟨later, last, rfl⟩
    · -- Either the record is the last one of the history, or it is one of those before.
      obtain ⟨rfl, same⟩ := List.append_inj' cut rfl
      cases same
      exact ⟨_, _, history, platform.arises_operate operated⟩
    · rw [List.concat_eq_append, ← List.cons_append, ← List.append_assoc] at cut
      exact ih (List.append_inj' cut rfl).1

/-! ## The main result -/

/-- Setting a clear flag and clearing it again changes nothing. -/
theorem World.setProcessing_of_clear (world : World ι σ) {e : ι}
    (clear : (world.embedders e).processing = false) :
    (world.setProcessing e true).setProcessing e false = world := by
  have same := World.embedders_setProcessing_of_busy world e clear rfl
  obtain ⟨embedders, state⟩ := world
  exact congrArg (World.mk · state) same

namespace Platform

/-- The events that an embedder answers at once, without a request: those that announce no
activation, those that come while it is busy, and all others as long as it is not installed. -/
theorem process_of_idle (platform : Platform ι ν σ) (visitor : Visitor ι ν σ) (e : ι)
    (event : Event) (world : World ι σ) :
    (event.code ≠ activationCode →
      platform.process visitor e event world = some ⟨[], .returned .notActivation, world⟩) ∧
    (event.code = activationCode → (world.embedders e).processing = true →
      platform.process visitor e event world = some ⟨[], .returned .reentrant, world⟩) ∧
    (event.code = activationCode → (world.embedders e).processing = false →
      (world.embedders e).host? = none →
      platform.process visitor e event world = some ⟨[], .returned .inactive, world⟩) := by
  unfold Platform.process Event.activating?
  refine ⟨fun other => ?_, fun activated busy => ?_, fun activated clear vacant => ?_⟩
  · rw [if_neg other]
  · rw [if_pos activated]
    simp only [busy, if_true]
  · have none : (world.embedders e).installation = none := Option.map_eq_none_iff.mp vacant
    rw [if_pos activated]
    simp only [clear, Bool.false_eq_true, if_false, Embedder.respond, none]
    -- The flag is set and cleared again, and nothing else happens in between.
    exact congrArg (fun after => some (Run.mk [] (.returned ActivationOutcome.inactive) after))
      (world.setProcessing_of_clear clear)

section Free

variable {platform : Platform ι ν σ} {depth : Nat} {e : ι} {event : Event} {world : World ι σ}
  {win : Handle}

/-- What an embedder that is free does about an activation is a run of its response. -/
theorem respond_allows_of_process {run : Run ι σ (Act ι ν) ActivationOutcome}
    (announced : event.activating? = some win) (free : (world.embedders e).processing = false)
    (processed : platform.process (platform.visit depth) e event world = some run) :
    ((world.embedders e).respond win).Allows run.trace run.ending :=
  (arise_process (platform.orderly_visit depth) processed).1.allows_of_free announced free

end Free

/-- What an embedder makes of an event is decided in a fixed order. An event that announces no
activation is none of its business, an activation that comes while it deals with another one is
refused, and without an installation it is inactive, all without a request. Otherwise the window has
to pass the filter, which takes one answer about its class and one about its parent. In every
history, a window is changed only in a handling in which it has passed the filter, and a handling
embeds its window if and only if that is so and nothing unwinds in it. -/
theorem filters_activations (platform : Platform ι ν σ) :
    (∀ visitor e event (world : World ι σ),
      (event.code ≠ activationCode →
        platform.process visitor e event world = some ⟨[], .returned .notActivation, world⟩) ∧
      (event.code = activationCode → (world.embedders e).processing = true →
        platform.process visitor e event world = some ⟨[], .returned .reentrant, world⟩) ∧
      (event.code = activationCode → (world.embedders e).processing = false →
        (world.embedders e).host? = none →
        platform.process visitor e event world = some ⟨[], .returned .inactive, world⟩)) ∧
    (∀ depth e event (world : World ι σ) host, event.code = activationCode →
      (world.embedders e).processing = false → (world.embedders e).host? = some host →
      (∀ run, platform.process (platform.visit depth) e event world = some run →
        Filtered (world.embedders e).options host ⟨event.wparam.toInt64⟩
          run.trace run.ending) ∧
      ∀ calm, platform.Responsive (platform.visit depth) calm → calm world.platform →
        ∃ run, platform.process (platform.visit depth) e event world = some run) ∧
    ∀ first world records before record later, platform.History first records world →
      records = before ++ record :: later → ∃ middle, platform.History first before middle ∧
        (∀ handling ∈ record.handlings, handling.Gated (middle.embedders handling.embedder)) ∧
        ∀ e part mutation, .asks e part (.mutate mutation) ∈ record.moments →
          ∃ handling ∈ record.handlings, handling.embedder = e ∧
            .mutate mutation ∈ Act.requests handling.acts := by
  refine ⟨fun visitor e event world => platform.process_of_idle visitor e event world, ?_, ?_⟩
  · intro depth e event world host activated free installed
    have announced : event.activating? = some ⟨event.wparam.toInt64⟩ := by
      rw [Event.activating?, if_pos activated]
    refine ⟨fun run processed => ?_, fun calm responsive healthy => ?_⟩
    · exact Embedder.filtered_of_respond installed
        (respond_allows_of_process announced free processed)
    · obtain ⟨run, processed, -⟩ := exists_process responsive healthy e event
      exact ⟨run, processed⟩
  · intro first world records before record later history cut
    obtain ⟨middle, after, earlier, arises⟩ := history.arises_at cut
    exact ⟨middle, earlier, arises.gated, fun e part mutation => arises.handling_of_mutation⟩

end Platform

end Runs

namespace Desktop

/-- On the desktop with the long class, its plot passes the filter and is embedded. -/
theorem filters_activations_of_long_class : ∃ run rest size,
    platform.process (platform.visit 0) 0 (.activation ⟨2⟩) (labelled (Text.encode longClass)) =
      some run ∧
    Act.Admits longClass ⟨1⟩ ⟨2⟩ run.trace rest ∧ run.ending = .returned (.embedded size) := by
  have filter := (Platform.filters_activations (platform (ι := Nat))).2.1 0 0 (.activation ⟨2⟩)
    (labelled (Text.encode longClass)) ⟨1⟩ rfl rfl rfl
  obtain ⟨run, processed⟩ := filter.2 _ (responsive 0) (Nat.le_refl 0)
  -- The outcome is computed once, and the filter tells from it what must have happened.
  have ends : ((platform.process (platform.visit 0) 0 (.activation ⟨2⟩)
      (labelled (Text.encode longClass))).map (·.ending)) =
        some (.returned (.embedded ⟨0, 0⟩)) := by
    decide +kernel
  rw [processed] at ends
  have embedded : run.ending = .returned (.embedded ⟨0, 0⟩) := Option.some.inj ends
  obtain ⟨⟨rest, admits⟩, -⟩ := (filter.1 run processed).embedded_iff.mp ⟨_, embedded⟩
  exact ⟨run, rest, _, processed, admits, embedded⟩

end Desktop

end PlotEmbedding
