import PlotEmbedding.Proofs.InForce

/-!
# A window is embedded once

Whether a window is a child of the host is asked once in the handling of an activation, before any
of the steps of embedding it, and each of these may be a time at which more events are delivered or
a panic strikes. All the same the host is notified of a window at most once, as long as the platform
keeps the parents that it is given and names them when asked: `TellsParent` says so of what one
embedder is told about one window, by the moments alone.

A handling concludes if it notifies the host or embeds the window, and it is quiet if it changes
nothing and does not embed the window. By then it has made the window a child of the host, and so a
handling that concludes is followed by quiet ones only. `Once` is this property of a part of a run.
It is put together along the call tree, with the parent that is known at each moment, and
`Platform.History.embeds_once` is what comes out for whole histories.
-/

namespace PlotEmbedding

variable {ι ν σ : Type}

/-! ## Handlings -/

/-- One handling of an event by an embedder. -/
structure Handling (ι ν : Type) where
  embedder : ι
  event : Event
  /-- What the embedder did itself. -/
  acts : List (Act ι ν)
  ending : Ending ActivationOutcome

mutual

/-- The handlings in the course of one act of an embedder. -/
def Act.handlings : Act ι ν → List (Handling ι ν)
  | .report _ => []
  | .call _ visits _ => Visit.allHandlings visits

/-- The handlings in the course of the acts of an embedder, in the order in which they begin. -/
def Act.allHandlings : List (Act ι ν) → List (Handling ι ν)
  | [] => []
  | act :: rest => act.handlings ++ Act.allHandlings rest

/-- The handlings in one visit. -/
def Visit.handlings : Visit ι ν → List (Handling ι ν)
  | .process e event acts ending => ⟨e, event, acts, ending⟩ :: Act.allHandlings acts
  | .activating e event handling outcome handingOn _ =>
    ⟨e, event, handling, outcome⟩ :: (Act.allHandlings handling ++ Act.allHandlings handingOn)
  | .look _ _ => []
  | .note _ => []

/-- The handlings in visits, in the order in which they begin. -/
def Visit.allHandlings : List (Visit ι ν) → List (Handling ι ν)
  | [] => []
  | visit :: rest => visit.handlings ++ Visit.allHandlings rest

end

/-- The handlings in the course of an operation, in the order in which they begin. -/
def Record.handlings : Record ι ν → List (Handling ι ν)
  | create _ _ acts _ => Act.allHandlings acts
  | install _ _ acts _ => Act.allHandlings acts
  | uninstall _ acts _ => Act.allHandlings acts
  | drop _ acts _ => Act.allHandlings acts
  | visit v => v.handlings

@[simp] theorem Visit.allHandlings_singleton (visit : Visit ι ν) :
    Visit.allHandlings [visit] = visit.handlings := by
  rw [allHandlings, allHandlings, List.append_nil]

theorem Record.handlings_of_upkeep {record : Record ι ν} {e : ι} {acts : List (Act ι ν)}
    (h : record.upkeep? = some (e, acts)) : record.handlings = Act.allHandlings acts := by
  cases record <;> cases h <;> rfl

/-- The change of a window that a request asks for. -/
def Request.mutation? : Request → Option Mutation
  | mutate mutation => some mutation
  | _ => none

/-- The change is a message to a host. -/
def Mutation.isNotification : Mutation → Bool
  | postMessage _ _ => true
  | _ => false

namespace Handling

/-- The embedder handles the activation of the window. -/
def isFor [DecidableEq ι] (e : ι) (win : Handle) (h : Handling ι ν) : Bool :=
  h.embedder = e ∧ h.event.activating? = some win

/-- The changes that the embedder asks for itself. -/
def mutations (h : Handling ι ν) : List Mutation :=
  (Act.requests h.acts).filterMap Request.mutation?

/-- Nothing is changed, and nothing embedded. -/
def Quiet (h : Handling ι ν) : Prop :=
  h.mutations = [] ∧ ∀ size, h.ending ≠ .returned (.embedded size)

/-- The host is notified, or the window embedded. -/
def Concludes (h : Handling ι ν) : Prop :=
  0 < h.mutations.countP Mutation.isNotification ∨ ∃ size, h.ending = .returned (.embedded size)

theorem Quiet.not_concludes {h : Handling ι ν} (quiet : h.Quiet) : ¬ h.Concludes := by
  rintro (notifies | ⟨size, embedded⟩)
  · rw [quiet.1] at notifies
    exact nomatch notifies
  · exact quiet.2 size embedded

theorem Quiet.notifies_le_one {h : Handling ι ν} (quiet : h.Quiet) :
    h.mutations.countP Mutation.isNotification ≤ 1 := by
  rw [quiet.1]
  exact Nat.zero_le _

/-- An embedder that does nothing is quiet, unless it says that it has embedded the window. -/
theorem quiet_of_acts_eq_nil {h : Handling ι ν} (nothing : h.acts = [])
    (ending : ∀ size, h.ending ≠ .returned (.embedded size)) : h.Quiet :=
  ⟨by rw [mutations, nothing]; rfl, ending⟩

end Handling

/-- The handlings by an embedder of the activations of a window, in the order in which they begin.
-/
def handlingsOf [DecidableEq ι] (e : ι) (win : Handle) (records : List (Record ι ν)) :
    List (Handling ι ν) :=
  (records.flatMap Record.handlings).filter (·.isFor e win)

/-- The handing on of an event comes after its handling, with all that takes place meanwhile. -/
theorem Visit.chronicle_activating {e : ι} {event : Event} {handling handingOn : List (Act ι ν)}
    {outcome : Ending ActivationOutcome} {ending : Ending Int64} {rest : List (Visit ι ν)} :
    Visit.chronicle (.activating e event handling outcome handingOn ending :: rest) =
      (.begins e event :: (Act.chronicle e .handling handling ++ [.ends e outcome])) ++
        (Act.chronicle e .handingOn handingOn ++ Visit.chronicle rest) := by
  simp [Visit.chronicle, Visit.moments]

/-- The handlings in the course of the handing on of an event come after those in the course of its
handling. -/
theorem Visit.allHandlings_activating {e : ι} {event : Event} {handling handingOn : List (Act ι ν)}
    {outcome : Ending ActivationOutcome} {ending : Ending Int64} {rest : List (Visit ι ν)} :
    Visit.allHandlings (.activating e event handling outcome handingOn ending :: rest) =
      (⟨e, event, handling, outcome⟩ :: Act.allHandlings handling) ++
        (Act.allHandlings handingOn ++ Visit.allHandlings rest) := by
  simp [Visit.allHandlings, Visit.handlings]

mutual

/-- What holds of every handling, as long as the embedders are in states with an invariant that does
not mind that one of them responds, holds of all handlings in the course of acts. -/
theorem Act.Arise.forall_handling [DecidableEq ι] {I : Roster ι → Prop} {Q : Handling ι ν → Prop}
    {roster : Roster ι} {acts : List (Act ι ν)} (h : Act.Arise roster acts)
    (busy : ∀ {roster : Roster ι} (e : ι), I roster → I (roster.busy e))
    (handles : ∀ {roster : Roster ι} {e : ι} {event : Event} {acts : List (Act ι ν)}
      {ending : Ending ActivationOutcome}, I roster → (roster e).Handles event acts ending →
      Q ⟨e, event, acts, ending⟩) (inv : I roster) : ∀ h ∈ Act.allHandlings acts, Q h :=
  match h with
  | .nil _ => List.forall_mem_nil _
  | .report rest => rest.forall_handling busy handles inv
  | .call visited rest => List.forall_mem_append.mpr
      ⟨visited.forall_handling busy handles inv, rest.forall_handling busy handles inv⟩

/-- What holds of every handling holds of all handlings in visits. -/
theorem Visit.Arise.forall_handling [DecidableEq ι] {I : Roster ι → Prop} {Q : Handling ι ν → Prop}
    {roster : Roster ι} {visits : List (Visit ι ν)} (h : Visit.Arise roster visits)
    (busy : ∀ {roster : Roster ι} (e : ι), I roster → I (roster.busy e))
    (handles : ∀ {roster : Roster ι} {e : ι} {event : Event} {acts : List (Act ι ν)}
      {ending : Ending ActivationOutcome}, I roster → (roster e).Handles event acts ending →
      Q ⟨e, event, acts, ending⟩) (inv : I roster) : ∀ h ∈ Visit.allHandlings visits, Q h :=
  match h with
  | .nil _ => List.forall_mem_nil _
  | .process handled arise rest => List.forall_mem_cons.mpr ⟨handles inv handled,
      List.forall_mem_append.mpr ⟨arise.forall_handling busy handles (busy _ inv),
        rest.forall_handling busy handles inv⟩⟩
  | .activating handled arise _ arise' rest => List.forall_mem_cons.mpr ⟨handles inv handled,
      List.forall_mem_append.mpr ⟨List.forall_mem_append.mpr
        ⟨arise.forall_handling busy handles (busy _ inv), arise'.forall_handling busy handles inv⟩,
        rest.forall_handling busy handles inv⟩⟩
  | .look rest => rest.forall_handling busy handles inv
  | .note rest => rest.forall_handling busy handles inv

end

/-- An embedder that is busy handles all events quietly. -/
theorem Embedder.Handles.quiet_of_busy {x : Embedder} {e : ι} {event : Event}
    {acts : List (Act ι ν)} {ending : Ending ActivationOutcome}
    (h : x.Handles event acts ending) (busy : x.processing = true) :
    Handling.Quiet ⟨e, event, acts, ending⟩ := by
  cases h with
  | other _ => exact Handling.quiet_of_acts_eq_nil rfl nofun
  | refused _ _ => exact Handling.quiet_of_acts_eq_nil rfl nofun
  | responds _ idle _ =>
    rw [busy] at idle
    exact nomatch idle

/-- What is delivered to an embedder while it is busy is handled quietly. -/
theorem Act.Arise.quiet_of_busy [DecidableEq ι] {roster : Roster ι} {acts : List (Act ι ν)} {e : ι}
    (h : Act.Arise roster acts) (busy : (roster e).processing = true) (win : Handle) :
    ∀ h ∈ (Act.allHandlings acts).filter (·.isFor e win), h.Quiet := by
  -- The invariant is the flag of the embedder, which no other embedder that begins to respond
  -- clears.
  have all : ∀ h ∈ Act.allHandlings acts, h.embedder = e → h.Quiet := by
    refine h.forall_handling (I := fun roster => (roster e).processing = true) ?_ ?_ busy
    · intro roster name busy
      by_cases own : e = name
      · rw [own, Roster.busy, Function.update_self]
      · rw [Roster.busy, Function.update_of_ne own]
        exact busy
    · rintro roster name event acts ending busy handles rfl
      exact handles.quiet_of_busy busy
  intro h hh
  obtain ⟨among, isFor⟩ := List.mem_filter.mp hh
  exact all h among (of_decide_eq_true isFor).1

/-! ## One response -/

namespace Embedder

variable {x : Embedder} {e : ι} {event : Event} {win : Handle} {acts : List (Act ι ν)}
  {ending : Ending ActivationOutcome}

/-- A handling of an activation is quiet, or it is told that the window is not known to be a child
of the host and embeds it. -/
theorem Handles.quiet_or_embeds (h : x.Handles event acts ending)
    (activated : event.activating? = some win) :
    Handling.Quiet ⟨e, event, acts, ending⟩ ∨
    ∃ installation visits visits' answer later, x.installation = some installation ∧
      answer ≠ .ok (some installation.host) ∧
      acts =
        .call (.className win classNameCapacity) visits (.returned (.ok x.options.plotClass)) ::
          .call (.parent win) visits' (.returned answer) :: later ∧
      (embed x.options installation.host win).Allows later ending := by
  cases h with
  | other _ => exact .inl (Handling.quiet_of_acts_eq_nil rfl (by simp))
  | refused _ _ => exact .inl (Handling.quiet_of_acts_eq_nil rfl (by simp))
  | @responds win' _ _ activated' _ run =>
    obtain rfl : win' = win := Option.some.inj (activated'.symm.trans activated)
    cases responds_of_allows run with
    | inactive _ => exact .inl ⟨rfl, by simp⟩
    | classPanic _ => exact .inl ⟨rfl, by simp⟩
    | mismatch _ _ =>
      refine .inl ⟨?_, by simp⟩
      rw [Handling.mutations, Act.requests, Act.requests_reports]
      rfl
    | parentPanic _ => exact .inl ⟨rfl, by simp⟩
    | already _ => exact .inl ⟨rfl, by simp⟩
    | embeds installed other run => exact .inr ⟨_, _, _, _, _, installed, other, rfl, run⟩

/-- The requests of embedding a window, but for the last. -/
theorem steps_eq (options : Options) (host win : Handle) (size : Size) :
    ∃ first, steps options host win size = first ++ [.mutate (.postMessage host options.message)] ∧
      .mutate (.setParent win host) ∈ first ∧
      ((first.filterMap Request.mutation?).countP Mutation.isNotification = 0) :=
  ⟨[.mutate (.setStyle win childWindowStyle), .mutate (.setExStyle win noExtendedStyle),
    .mutate (.removeMenu win), .mutate (.clearTitle win), .mutate (.setParent win host),
    .clientArea host, .mutate (.place win 0 0 size)], rfl, by simp, rfl⟩

/-- An embedding that notifies the host, or that succeeds, is told before how it made the window a
child of the host. -/
theorem embed_concludes {options : Options} {host : Handle}
    (run : (embed options host win).Allows acts ending)
    (concludes : Handling.Concludes ⟨e, event, acts, ending⟩) :
    .mutate (.setParent win host) ∈ Act.answered acts := by
  obtain ⟨size, fulfils⟩ := embed_allows run
  obtain ⟨first, plan, parent, quiet⟩ := steps_eq options host win size
  rw [plan] at fulfils
  -- All of the steps were asked for, and at most the last of them has no answer.
  have all : Act.requests acts = first ++ [.mutate (.postMessage host options.message)] := by
    rcases fulfils with ⟨all, -⟩ | ⟨part, panic, unwound⟩
    · exact all
    · rcases List.prefix_concat_iff.mp part with all | less
      · exact all
      · rcases concludes with notifies | ⟨size, embedded⟩
        · -- The notification is the last step, so a part of the plan that lacks the last has none.
          have none := (less.sublist.filterMap Request.mutation?).countP_le
            (p := Mutation.isNotification)
          rw [quiet] at none
          exact absurd notifies (Nat.not_lt.mpr none)
        · exact nomatch embedded.symm.trans unwound
  -- The parent is changed before the notification is posted, and so that change was answered.
  rcases run.answered_or with same | ⟨last, panic, same, -⟩
  · rw [same, all]
    exact List.mem_append_left _ parent
  · rw [all] at same
    rw [(List.append_inj' same rfl).1]
    exact parent

/-- No handling notifies the host more than once. -/
theorem Handles.notifies_le_one (h : x.Handles event acts ending) :
    (Handling.mutations ⟨e, event, acts, ending⟩).countP Mutation.isNotification ≤ 1 := by
  cases activated : event.activating? with
  | none =>
    cases h with
    | other _ => exact Nat.zero_le _
    | refused announced _ => exact nomatch announced.symm.trans activated
    | responds announced _ _ => exact nomatch announced.symm.trans activated
  | some win =>
    rcases h.quiet_or_embeds (e := e) activated with
      quiet | ⟨installation, _, _, _, later, _, _, rfl, run⟩
    · rw [quiet.1]
      exact Nat.zero_le _
    · obtain ⟨size, fulfils⟩ := embed_allows run
      -- The requests are those of the plan, or as many of them as it came to.
      have part : Act.requests later <+: steps x.options installation.host win size := by
        rcases fulfils with ⟨all, -⟩ | ⟨part, -⟩
        · exact all ▸ List.prefix_rfl
        · exact part
      exact (part.sublist.filterMap Request.mutation?).countP_le

end Embedder

/-- What was answered was heard. -/
theorem Act.hears_of_answered (e : ι) (part : Part) {acts : List (Act ι ν)} {request : Request}
    (h : request ∈ Act.answered acts) :
    ∃ answer, .hears e part request (.returned answer) ∈ Act.chronicle e part acts := by
  induction acts with
  | nil => exact nomatch h
  | cons act rest ih =>
    cases act with
    | report line => exact ih h
    | call r visits ending =>
      -- A request that was answered later is heard later, behind what this call adds.
      have later : request ∈ Act.answered rest → ∃ answer,
          .hears e part request (.returned answer) ∈
            Act.chronicle e part (.call r visits ending :: rest) := by
        intro h
        obtain ⟨answer, heard⟩ := ih h
        exact ⟨answer, List.mem_append_right _ heard⟩
      cases ending with
      | returned answer =>
        rcases List.mem_cons.mp h with rfl | h
        · exact ⟨answer, by simp [Act.chronicle, Act.moments]⟩
        · exact later h
      | unwound panic => exact later h

/-! ## The parent that is known -/

section Parent

variable [DecidableEq ι] (e : ι) (win : Handle)

/-- The parent that the window has been given at the moment, whatever the answer was. -/
def Moment.newParent? : Moment ι → Option Handle
  | hears _ _ (.mutate (.setParent child parent)) (.returned _) =>
    if child = win then some parent else none
  | _ => none

/-- The embedder that hears at the moment how it gave the window a parent. -/
def Moment.parentGiver? : Moment ι → Option ι
  | hears name _ (.mutate (.setParent child _)) _ => if child = win then some name else none
  | _ => none

/-- What the embedder is told at the moment of the parent of the window, which is nothing if the
question is refused. -/
def Moment.toldParent? : Moment ι → Option (Option (Option Handle))
  | hears name _ (.parent child) (.returned answer) =>
    if name = e ∧ child = win then some answer.toOption else none
  | _ => none

/-- The parent of the window once moments have passed, as far as it is known. -/
def parentAfter (known : Option Handle) (moments : List (Moment ι)) : Option Handle :=
  moments.foldl (fun known moment => (moment.newParent? win).or known) known

/-- Whenever the embedder is told the parent of the window, it is told the one that is known. -/
def TellsParent : Option Handle → List (Moment ι) → Prop
  | _, [] => True
  | known, moment :: rest =>
    (∀ told ∈ moment.toldParent? e win, ∀ parent ∈ known, told = some (some parent)) ∧
      TellsParent ((moment.newParent? win).or known) rest

instance decidableTellsParent : (known : Option Handle) → (moments : List (Moment ι)) →
    Decidable (TellsParent e win known moments)
  | _, [] => .isTrue trivial
  | known, moment :: rest =>
    have := decidableTellsParent ((moment.newParent? win).or known) rest
    inferInstanceAs (Decidable (_ ∧ _))

variable {e win} {known : Option Handle} {moments later : List (Moment ι)} {host : Handle}

omit [DecidableEq ι] in
theorem parentAfter_cons (moment : Moment ι) : parentAfter win known (moment :: moments) =
    parentAfter win ((moment.newParent? win).or known) moments := rfl

omit [DecidableEq ι] in
theorem parentAfter_append : parentAfter win known (moments ++ later) =
    parentAfter win (parentAfter win known moments) later :=
  List.foldl_append

/-- The parent is told throughout moments in a row if it is told throughout each part. -/
theorem tellsParent_append : TellsParent e win known (moments ++ later) ↔
    TellsParent e win known moments ∧ TellsParent e win (parentAfter win known moments) later := by
  induction moments generalizing known with
  | nil => simp [TellsParent, parentAfter]
  | cons moment rest ih => rw [List.cons_append, TellsParent, TellsParent, ih, and_assoc]; rfl

/-- If the window is given a parent at the moment, it is the host. -/
def Moment.Aims (win host : Handle) (moment : Moment ι) : Prop :=
  ∀ parent ∈ moment.newParent? win, parent = host

omit [DecidableEq ι] in
/-- The parent stays the host, or becomes the host if the window is given a parent at all. -/
theorem parentAfter_of_aims (aims : ∀ m ∈ moments, m.Aims win host)
    (given : known = some host ∨ ∃ m ∈ moments, (m.newParent? win).isSome) :
    parentAfter win known moments = some host := by
  induction moments generalizing known with
  | nil =>
    rcases given with rfl | ⟨_, among, _⟩
    · rfl
    · exact nomatch among
  | cons moment rest ih =>
    obtain ⟨now, aims⟩ := List.forall_mem_cons.mp aims
    rw [parentAfter_cons]
    refine ih aims ?_
    -- A moment that gives the window a parent gives it the host; any other leaves what was known.
    cases new : moment.newParent? win with
    | some parent => exact .inl (congrArg some (now parent new))
    | none =>
      rcases given with rfl | ⟨m, among, gives⟩
      · exact .inl rfl
      · rcases List.mem_cons.mp among with rfl | among
        · rw [new] at gives
          exact nomatch gives
        · exact .inr ⟨m, among, gives⟩

/-- Once the window is known to be a child of the host, the embedder is told nothing else. -/
theorem TellsParent.told (tells : TellsParent e win (some host) moments)
    (aims : ∀ m ∈ moments, m.Aims win host) :
    ∀ m ∈ moments, ∀ told ∈ m.toldParent? e win, told = some (some host) := by
  induction moments with
  | nil => exact List.forall_mem_nil _
  | cons moment rest ih =>
    obtain ⟨now, aims⟩ := List.forall_mem_cons.mp aims
    obtain ⟨here, tells⟩ := tells
    -- What is known to be the parent stays the host, also if the moment gives the window a parent.
    have same : (moment.newParent? win).or (some host) = some host := by
      cases new : moment.newParent? win with
      | none => rfl
      | some parent => exact congrArg some (now parent new)
    rw [same] at tells
    exact List.forall_mem_cons.mpr ⟨fun told h => here told h host rfl, ih tells aims⟩

end Parent

/-! ## Parts of a run -/

/-- In a part of a run with these handlings, the host is notified at most once in each of them, one
that concludes leaves the window known to be a child of the host and only quiet ones follow on it,
and all are quiet if the window is known to be a child of the host from the beginning. -/
structure Once (win host : Handle) (known : Option Handle) (moments : List (Moment ι))
    (handlings : List (Handling ι ν)) : Prop where
  single : ∀ h ∈ handlings, h.mutations.countP Mutation.isNotification ≤ 1
  kept : known = some host → ∀ h ∈ handlings, h.Quiet
  settles : ∀ h ∈ handlings, h.Concludes → parentAfter win known moments = some host
  pairwise : handlings.Pairwise fun h h' => h.Concludes → h'.Quiet

/-- If each part of a list has at most one element of a kind, and none if a part before it has one,
then the whole list has at most one. -/
theorem countP_flatMap_le_one {α β : Type} {p : β → Bool} {f : α → List β} {l : List α}
    (single : ∀ a ∈ l, (f a).countP p ≤ 1)
    (pairwise : l.Pairwise fun a b => 0 < (f a).countP p → (f b).countP p = 0) :
    (l.flatMap f).countP p ≤ 1 := by
  induction l with
  | nil => exact Nat.zero_le _
  | cons a rest ih =>
    obtain ⟨here, single⟩ := List.forall_mem_cons.mp single
    obtain ⟨after, pairwise⟩ := List.pairwise_cons.mp pairwise
    rw [List.flatMap_cons, List.countP_append]
    -- If this part has the element, no later part has one; otherwise it does not count.
    by_cases counts : 0 < (f a).countP p
    · have none : (rest.flatMap f).countP p = 0 := by
        refine List.countP_eq_zero.mpr fun b among => ?_
        obtain ⟨part, later, inside⟩ := List.mem_flatMap.mp among
        exact List.countP_eq_zero.mp (after part later counts) b inside
      omega
    · have := ih single pairwise
      omega

section Once

variable {win host : Handle} {known : Option Handle} {moments later : List (Moment ι)}
  {handlings handlings' : List (Handling ι ν)}

/-- Quiet handlings have the property whatever is known. -/
theorem once_of_quiet (quiet : ∀ h ∈ handlings, h.Quiet) :
    Once win host known moments handlings where
  single h among := (quiet h among).notifies_le_one
  kept _ := quiet
  settles h among concludes := absurd concludes (quiet h among).not_concludes
  pairwise := List.pairwise_of_forall_mem_list fun _ _ h' among _ => quiet h' among

/-- Moments without handlings have the property. -/
theorem once_nil : Once win host known moments ([] : List (Handling ι ν)) :=
  once_of_quiet (List.forall_mem_nil _)

/-- A handling with the property has it with quiet ones inside of it as well. -/
theorem Once.cons {h : Handling ι ν} (own : Once win host known moments [h])
    (quiet : ∀ h' ∈ handlings, h'.Quiet) : Once win host known moments (h :: handlings) where
  single := List.forall_mem_cons.mpr ⟨own.single h List.mem_cons_self,
    fun h' among => (quiet h' among).notifies_le_one⟩
  kept child := List.forall_mem_cons.mpr ⟨own.kept child h List.mem_cons_self, quiet⟩
  settles := List.forall_mem_cons.mpr ⟨own.settles h List.mem_cons_self,
    fun h' among concludes => absurd concludes (quiet h' among).not_concludes⟩
  pairwise := List.pairwise_cons.mpr ⟨fun h' among _ => quiet h' among,
    List.pairwise_of_forall_mem_list fun _ _ h' among _ => quiet h' among⟩

/-- Parts of a run in a row have the property if each of them has. -/
theorem Once.append (first : Once win host known moments handlings)
    (rest : Once win host (parentAfter win known moments) later handlings')
    (aims : ∀ m ∈ moments ++ later, m.Aims win host) :
    Once win host known (moments ++ later) (handlings ++ handlings') := by
  obtain ⟨aims, aims'⟩ := List.forall_mem_append.mp aims
  constructor
  · exact List.forall_mem_append.mpr ⟨first.single, rest.single⟩
  · intro child
    exact List.forall_mem_append.mpr
      ⟨first.kept child, rest.kept (parentAfter_of_aims aims (.inl child))⟩
  · -- What is settled in the first part stays so in the second, which aims at the host as well.
    rw [parentAfter_append]
    exact List.forall_mem_append.mpr
      ⟨fun h among concludes => parentAfter_of_aims aims' (.inl (first.settles h among concludes)),
        rest.settles⟩
  · exact List.pairwise_append.mpr ⟨first.pairwise, rest.pairwise,
      fun h among h' among' concludes => rest.kept (first.settles h among concludes) h' among'⟩

/-- Moments without handlings may come before and after a part of a run, if none of those before
gives the window a parent. -/
theorem Once.enclosed (inside : Once win host known moments handlings) {before after : Moment ι}
    (silent : before.newParent? win = none)
    (aims : ∀ m ∈ before :: (moments ++ [after]), m.Aims win host) :
    Once win host known (before :: (moments ++ [after])) handlings := by
  obtain ⟨-, aims⟩ := List.forall_mem_cons.mp aims
  have ends : Once win host (parentAfter win known moments) [after] ([] : List (Handling ι ν)) :=
    once_nil
  have closed := inside.append ends aims
  rw [List.append_nil] at closed
  refine ⟨closed.single, closed.kept, ?_, closed.pairwise⟩
  rw [parentAfter_cons, silent]
  exact closed.settles

variable [DecidableEq ι] {e : ι} {installation : Installation}

/-- One handling of the activation of the window, by itself. -/
theorem once_handles {x : Embedder} {event : Event} {acts : List (Act ι ν)}
    {ending : Ending ActivationOutcome} (handles : x.Handles event acts ending)
    (activated : event.activating? = some win) (installed : x.installation = some installation)
    (part : Act.chronicle e .handling acts ⊆ moments)
    (aims : ∀ m ∈ moments, m.Aims win installation.host) (tells : TellsParent e win known moments) :
    Once win installation.host known moments [⟨e, event, acts, ending⟩] := by
  rcases handles.quiet_or_embeds (e := e) activated with
    quiet | ⟨same, visits, visits', answer, later, installed', other, rfl, run⟩
  · exact once_of_quiet (List.forall_mem_singleton.mpr quiet)
  · obtain rfl : same = installation := Option.some.inj (installed'.symm.trans installed)
    constructor
    · -- At most once, and not at all if the parent is known from before.
      exact List.forall_mem_singleton.mpr handles.notifies_le_one
    · rintro rfl
      -- The embedder has been told something else, but the parent is known.
      have heard : .hears e .handling (.parent win) (.returned answer) ∈ moments :=
        part (by simp [Act.chronicle, Act.moments])
      have told : answer.toOption = some (some same.host) :=
        tells.told aims _ heard _ (by simp [Moment.toldParent?])
      cases answer with
      | ok parent => exact absurd (congrArg Except.ok (Option.some.inj told)) other
      | error failure => exact absurd told.symm (Option.some_ne_none _)
    · -- It concludes with the change of the parent, so that the parent is known from then on.
      refine List.forall_mem_singleton.mpr fun concludes => ?_
      have concludes : Handling.Concludes ⟨e, event, later, ending⟩ := concludes
      have parent := Embedder.embed_concludes run concludes
      obtain ⟨answer', heard⟩ := Act.hears_of_answered e .handling parent
      have among : .hears e .handling (.mutate (.setParent win same.host)) (.returned answer') ∈
          moments := part (by simp [Act.chronicle, heard])
      exact parentAfter_of_aims aims (.inr ⟨_, among, by simp [Moment.newParent?]⟩)
    · exact List.pairwise_singleton _ _

/-- The handling of an event, with all that takes place meanwhile. If it is not one of the embedder,
the property of what takes place is needed. -/
theorem once_handling {roster : Roster ι} {name : ι} {event : Event} {acts : List (Act ι ν)}
    {ending : Ending ActivationOutcome} (handles : (roster name).Handles event acts ending)
    (arise : Act.Arise (roster.busy name) acts)
    (installed : (roster e).installation = some installation)
    (aims : ∀ m ∈ .begins name event :: (Act.chronicle name .handling acts ++ [.ends name ending]),
      m.Aims win installation.host)
    (tells : TellsParent e win known
      (.begins name event :: (Act.chronicle name .handling acts ++ [.ends name ending])))
    (inside : name ≠ e → Once win installation.host known (Act.chronicle name .handling acts)
      ((Act.allHandlings acts).filter (·.isFor e win))) :
    Once win installation.host known
      (.begins name event :: (Act.chronicle name .handling acts ++ [.ends name ending]))
      ((⟨name, event, acts, ending⟩ :: Act.allHandlings acts).filter (·.isFor e win)) := by
  by_cases own : name = e
  · subst own
    have busy : ((roster.busy name) name).processing = true := by simp [Roster.busy]
    -- Meanwhile the embedder is busy, and so all that is delivered to it is handled quietly.
    have quiet := arise.quiet_of_busy busy win
    by_cases activated : event.activating? = some win
    · have isFor : Handling.isFor name win ⟨name, event, acts, ending⟩ = true := by
        simp [Handling.isFor, activated]
      rw [List.filter_cons_of_pos isFor]
      exact (once_handles handles activated installed (by simp) aims tells).cons quiet
    · have isFor : ¬ Handling.isFor name win ⟨name, event, acts, ending⟩ = true := by
        simp [Handling.isFor, activated]
      rw [List.filter_cons_of_neg isFor]
      exact once_of_quiet quiet
  · -- Another embedder's handling does not count, so only what takes place in it matters.
    have isFor : ¬ Handling.isFor e win ⟨name, event, acts, ending⟩ = true := by
      simp [Handling.isFor, own]
    rw [List.filter_cons_of_neg isFor]
    exact (inside own).enclosed rfl aims

mutual

/-- Acts that arise have the property, unless they are those of the embedder in handling an event.
-/
theorem Act.Arise.once {roster : Roster ι} {acts : List (Act ι ν)} {name : ι} {part : Part}
    {known : Option Handle} (h : Act.Arise roster acts)
    (installed : (roster e).installation = some installation)
    (aims : ∀ m ∈ Act.chronicle name part acts, m.Aims win installation.host)
    (tells : TellsParent e win known (Act.chronicle name part acts)) :
    Once win installation.host known (Act.chronicle name part acts)
      ((Act.allHandlings acts).filter (·.isFor e win)) :=
  match h with
  | .nil _ => once_nil
  | .report rest => rest.once installed aims tells
  | @Act.Arise.call _ _ _ _ request visits ending _ visited rest => by
    rw [Act.chronicle, Act.moments] at aims tells ⊢
    rw [Act.allHandlings, List.filter_append]
    obtain ⟨now, tells'⟩ := tellsParent_append.mp tells
    obtain ⟨here, later⟩ := List.forall_mem_append.mp aims
    have meanwhile := visited.once installed
      (fun m among => here m (List.mem_cons_of_mem _ (List.mem_append_left _ among)))
      (tellsParent_append.mp now.2).1
    -- What takes place during the request lies between asking and hearing, neither of which counts.
    exact (meanwhile.enclosed rfl here).append (rest.once installed later tells') aims

/-- Visits that arise have the property. -/
theorem Visit.Arise.once {roster : Roster ι} {visits : List (Visit ι ν)} {known : Option Handle}
    (h : Visit.Arise roster visits) (installed : (roster e).installation = some installation)
    (aims : ∀ m ∈ Visit.chronicle visits, m.Aims win installation.host)
    (tells : TellsParent e win known (Visit.chronicle visits)) :
    Once win installation.host known (Visit.chronicle visits)
      ((Visit.allHandlings visits).filter (·.isFor e win)) :=
  match h with
  | .nil _ => once_nil
  | @Visit.Arise.process _ _ _ _ name event acts ending _ handles arise rest => by
    rw [Visit.chronicle, Visit.moments] at aims tells ⊢
    rw [Visit.allHandlings, Visit.handlings, List.filter_append]
    obtain ⟨here, later⟩ := List.forall_mem_append.mp aims
    obtain ⟨now, tells'⟩ := tellsParent_append.mp tells
    -- Inside of another embedder's handling the installation is the same, so the induction applies.
    have first := once_handling handles arise installed here now fun other =>
      arise.once (roster.installation_busy name e ▸ installed)
        (fun m among => here m (List.mem_cons_of_mem _ (List.mem_append_left _ among)))
        (tellsParent_append.mp now.2).1
    exact first.append (rest.once installed later tells') aims
  | .activating handles arise _ arise' rest => by
    rw [Visit.chronicle_activating] at aims tells ⊢
    rw [Visit.allHandlings_activating, List.filter_append, List.filter_append]
    obtain ⟨here, there⟩ := List.forall_mem_append.mp aims
    obtain ⟨now, tells'⟩ := tellsParent_append.mp tells
    obtain ⟨passing, later⟩ := List.forall_mem_append.mp there
    obtain ⟨then', tells''⟩ := tellsParent_append.mp tells'
    have first := once_handling handles arise installed here now fun other =>
      arise.once (roster.installation_busy _ e ▸ installed)
        (fun m among => here m (List.mem_cons_of_mem _ (List.mem_append_left _ among)))
        (tellsParent_append.mp now.2).1
    have handedOn := arise'.once installed passing then'
    exact first.append (handedOn.append (rest.once installed later tells'') there) aims
  | .look rest =>
    once_nil.append (rest.once installed (List.forall_mem_cons.mp aims).2 tells.2) aims
  | .note rest => rest.once installed aims tells

end

end Once

/-! ## Histories -/

/-- If the embedder makes a window a child of another at the moment, then of the host. -/
def Moment.AimsAt (e : ι) (host : Handle) : Moment ι → Prop
  | hears name _ (.mutate (.setParent _ parent)) _ => name = e → parent = host
  | _ => True

/-- A request that names the host is aimed at the host. -/
theorem Request.NamesHost.aimsAt {host : Handle} {r : Request} (h : r.NamesHost host) (e name : ι)
    (part : Part) (ending : Ending r.Answer) : (Moment.hears name part r ending).AimsAt e host := by
  cases r with
  | mutate mutation =>
    cases mutation with
    | setParent win parent => exact fun _ => h
    | _ => trivial
  | _ => trivial

/-- Installing and uninstalling are aimed at no window. -/
theorem Request.OfUpkeep.aimsAt {host : Handle} {r : Request} (h : r.OfUpkeep) (e name : ι)
    (part : Part) (ending : Ending r.Answer) : (Moment.hears name part r ending).AimsAt e host := by
  cases r with
  | mutate mutation => exact h.elim
  | _ => trivial

section Histories

variable [DecidableEq ι] {e : ι} {installation : Installation}

/-- While the embedder has the installation, all that it embeds becomes a child of its host. -/
theorem covers_aimsAt :
    Covers ν (fun roster : Roster ι => (roster e).installation = some installation)
      (Moment.AimsAt e installation.host) where
  busy {roster} name installed := (roster.installation_busy name e).trans installed
  begins _ _ _ := trivial
  looks _ _ := trivial
  handles {roster name event acts ending} installed handles := by
    refine ⟨fun r hr => ⟨trivial, fun ended => ?_⟩, trivial⟩
    by_cases own : name = e
    · subst own
      obtain ⟨same, has, names⟩ := (handles.obeys r hr).1 (handles.requests r hr)
      obtain rfl : same = installation := Option.some.inj (has.symm.trans installed)
      exact names.aimsAt ..
    · cases r with
      | mutate mutation =>
        cases mutation with
        | setParent win parent => exact fun name => absurd name own
        | _ => trivial
      | _ => trivial
  handsOn {roster name event outcome acts ending} installed handsOn r hr := by
    refine ⟨trivial, fun ended => ?_⟩
    have forwards := handsOn.requests r hr
    cases r with
    | mutate mutation => exact forwards.elim
    | _ => trivial

/-- What an operation that leaves the installation alone embeds becomes a child of its host. -/
theorem Record.Arises.aimsAt {roster after : Roster ι} {record : Record ι ν}
    (h : record.Arises roster after) (kept : record.vacated? ≠ some e)
    (installed : (roster e).installation = some installation) :
    ∀ m ∈ record.moments, m.AimsAt e installation.host := by
  rcases h.upkeep_or_visit with
    ⟨name, acts, between, upkeep, arise, -, same, own⟩ | ⟨visit, rfl, arise⟩
  · rw [Record.moments_of_upkeep upkeep]
    rw [← same e kept] at installed
    exact arise.forall_moment covers_aimsAt installed
      fun r hr => ⟨trivial, fun _ => (own r hr).aimsAt ..⟩
  · have aims := arise.forall_moment covers_aimsAt installed
    rwa [Visit.chronicle_singleton] at aims

/-- An operation that leaves the installation alone has the property. -/
theorem Record.Arises.once {roster after : Roster ι} {record : Record ι ν} {win : Handle}
    {known : Option Handle} (h : record.Arises roster after) (kept : record.vacated? ≠ some e)
    (installed : (roster e).installation = some installation)
    (aims : ∀ m ∈ record.moments, m.Aims win installation.host)
    (tells : TellsParent e win known record.moments) :
    Once win installation.host known record.moments (record.handlings.filter (·.isFor e win)) := by
  rcases h.upkeep_or_visit with
    ⟨name, acts, between, upkeep, arise, -, same, -⟩ | ⟨visit, rfl, arise⟩
  · rw [Record.moments_of_upkeep upkeep] at aims tells ⊢
    rw [Record.handlings_of_upkeep upkeep]
    rw [← same e kept] at installed
    exact arise.once installed aims tells
  · rw [Record.moments, ← Visit.chronicle_singleton] at aims tells ⊢
    rw [Record.handlings, ← Visit.allHandlings_singleton]
    exact arise.once installed aims tells

namespace Platform

variable {platform : Platform ι ν σ} {first world : World ι σ} {records : List (Record ι ν)}

/-- As long as no operation ends it, an installation stays. -/
theorem History.installed (history : platform.History first records world)
    (installed : (first.embedders e).installation = some installation)
    (kept : ∀ record ∈ records, record.vacated? ≠ some e) :
    (world.embedders e).installation = some installation := by
  refine history.leads (I := fun records embedder =>
    (∀ record ∈ records, record.vacated? ≠ some e) → embedder.installation = some installation)
    (fun _ => installed) (fun leads stays kept => ?_) kept
  obtain ⟨earlier, last⟩ := List.forall_mem_append.mp kept
  exact leads.installation (last _ List.mem_cons_self) (stays earlier)

/-- A history that leaves the installation alone has the property, if no other embedder makes the
window a child. -/
theorem History.once {win : Handle} (history : platform.History first records world)
    (installed : (first.embedders e).installation = some installation)
    (kept : ∀ record ∈ records, record.vacated? ≠ some e)
    (alone : ∀ m ∈ Record.chronicle records, ∀ name ∈ m.parentGiver? win, name = e)
    (tells : TellsParent e win none (Record.chronicle records)) :
    (∀ m ∈ Record.chronicle records, m.Aims win installation.host) ∧
      Once win installation.host none (Record.chronicle records) (handlingsOf e win records) := by
  induction history with
  | begin => exact ⟨List.forall_mem_nil _, once_nil⟩
  | shift state _ ih => exact ih kept alone tells
  | @operate records before after record _ _ history operated ih =>
    rw [Record.chronicle_append, Record.chronicle_singleton] at alone tells ⊢
    obtain ⟨tells, tells'⟩ := tellsParent_append.mp tells
    obtain ⟨kept, last⟩ := List.forall_mem_append.mp kept
    have kept' : record.vacated? ≠ some e := last _ List.mem_cons_self
    obtain ⟨alone, alone'⟩ := List.forall_mem_append.mp alone
    obtain ⟨aims, once⟩ := ih kept alone tells
    have arises := platform.arises_operate operated
    have installed := history.installed installed kept
    -- Whoever gives the window a parent is the embedder itself, and it gives the window its host.
    have aims' : ∀ m ∈ record.moments, m.Aims win installation.host := by
      intro m among parent given
      unfold Moment.newParent? at given
      split at given
      · next name part child target answer =>
        split at given
        · next same =>
          cases given
          exact arises.aimsAt kept' installed _ among (alone' _ among _ (if_pos same))
        · exact nomatch given
      · exact nomatch given
    have all := List.forall_mem_append.mpr ⟨aims, aims'⟩
    refine ⟨all, ?_⟩
    rw [handlingsOf, List.flatMap_append, List.flatMap_singleton, List.filter_append]
    exact once.append (arises.once kept' installed aims' tells') all

/-- During one installation of an embedder, its handlings of the activations of a window notify the
host of it once in all at most, and after one of them has embedded the window, no later one changes
anything or embeds it again. This holds on every platform, whatever fails or panics and whatever
events are delivered meanwhile, as long as the platform keeps the parent that it gives the window
and tells it to the embedder, and no other embedder makes the window a child. -/
theorem History.embeds_once {win : Handle} (history : platform.History first records world)
    (installed : (first.embedders e).installation = some installation)
    (kept : ∀ record ∈ records, record.vacated? ≠ some e)
    (alone : ∀ m ∈ Record.chronicle records, ∀ name ∈ m.parentGiver? win, name = e)
    (tells : TellsParent e win none (Record.chronicle records)) :
    ((handlingsOf e win records).flatMap Handling.mutations).countP Mutation.isNotification ≤ 1 ∧
      ∀ before h size later, handlingsOf e win records = before ++ h :: later →
        h.ending = .returned (.embedded size) →
        ∀ h' ∈ later, h'.mutations = [] ∧ ∀ size', h'.ending ≠ .returned (.embedded size') := by
  have once := (history.once installed kept alone tells).2
  refine ⟨?_, fun before h size later whole embedded h' among => ?_⟩
  · exact countP_flatMap_le_one once.single (once.pairwise.imp fun {h h'} quiet notifies => by
      rw [(quiet (.inl notifies)).1]
      rfl)
  · have pairwise := once.pairwise
    rw [whole] at pairwise
    have follows := (List.pairwise_cons.mp (List.pairwise_append.mp pairwise).2.1).1 h' among
    exact follows (.inr ⟨size, embedded⟩)

end Platform

end Histories

/-- Of five activations of a plot that the embedder gets on this desktop, two of them in the middle
of another, the first one embeds the plot and notifies the host, and that is all. -/
theorem Desktop.embeds_once_of_pestered : ∃ records world h later,
    platform.operateAll 11
      [.process 0 (.activation ⟨2⟩), .activating 0 (.activation ⟨2⟩), .process 0 (.activation ⟨2⟩)]
      pestered = some (records, world) ∧
    handlingsOf 0 ⟨2⟩ records = h :: later ∧
    h.ending = .returned (.embedded ⟨0, 0⟩) ∧ h.mutations.countP Mutation.isNotification = 1 ∧
    later.length = 4 ∧ ∀ h' ∈ later, h'.mutations = [] := by
  have ends : (platform.operateAll 11
      [.process 0 (.activation ⟨2⟩), .activating 0 (.activation ⟨2⟩), .process 0 (.activation ⟨2⟩)]
      pestered).map (fun done : List (Record Nat Note) × World Nat (Desktop Nat) => (
        decide ((∀ record ∈ done.1, record.vacated? ≠ some 0) ∧
          (∀ m ∈ Record.chronicle done.1, ∀ name ∈ m.parentGiver? ⟨2⟩, name = 0) ∧
          TellsParent 0 ⟨2⟩ none (Record.chronicle done.1)),
        (handlingsOf 0 ⟨2⟩ done.1).map fun h =>
          (h.ending, h.mutations.countP Mutation.isNotification))) =
      some (true, (.returned (.embedded ⟨0, 0⟩), 1) ::
        [(.returned .reentrant, 0), (.returned .reentrant, 0), (.returned .alreadyEmbedded, 0),
          (.returned .alreadyEmbedded, 0)]) := by decide +kernel
  obtain ⟨⟨records, world⟩, performed, outcome⟩ := Option.map_eq_some_iff.mp ends
  simp only [Prod.mk.injEq, decide_eq_true_eq] at outcome
  obtain ⟨⟨kept, alone, tells⟩, handlings⟩ := outcome
  obtain ⟨h, later, whole, first, rest⟩ := List.map_eq_cons_iff.mp handlings
  obtain ⟨embedded, notifies⟩ := Prod.mk.inj first
  -- The later handlings are counted by their outcomes, which the evaluation has told.
  have four : later.length = 4 := by
    rw [← List.length_map, rest]
    rfl
  have history : platform.History pestered records world :=
    Platform.History.begin.operateAll performed
  have installed : (pestered.embedders 0).installation = some ⟨⟨1⟩, ⟨0⟩⟩ := rfl
  have once := Platform.History.embeds_once history installed kept alone tells
  exact ⟨records, world, h, later, performed, whole, embedded, notifies, four,
    fun h' among => (once.2 [] h _ later whole embedded h' among).1⟩

end PlotEmbedding
