import Mathlib.Logic.Relation
import PlotEmbedding.Proofs.OrderIndependence

/-!
# The nesting of windows

Windows are nested in their parents. Nothing but the class and the parent of a window is looked at
before it is made a child of the host, so it may well be the host itself, or a window in which the
host is nested, and then it is nested in itself afterwards. `Desktop.treelike_reparent_iff` says
that this is the only way to lose the tree.

It is enough to look at the nesting before the first event. A window in which the host gets nested
later on would have to be a parent of something new, but the host is the only one that is, so
`Desktop.nested_of_reparent` has it nested there before. `Act.Takes.preserves` carries what requests
preserve through a call tree, and `Desktop.treelike_of_calls` through any number of events.
-/

namespace PlotEmbedding

variable {ι ν α : Type}

/-! ## Trees of windows -/

namespace Desktop

/-- The window is a child of the other one. -/
def ChildOf (d : Desktop ι) (win parent : Handle) : Prop := d.parentOf win = some (some parent)

/-- The window is the other one, or is nested in it at some depth. -/
def Nested (d : Desktop ι) : Handle → Handle → Prop := Relation.ReflTransGen d.ChildOf

/-- No window is nested in itself. -/
def Treelike (d : Desktop ι) : Prop := ∀ win, ¬ Relation.TransGen d.ChildOf win win

variable {d d' : Desktop ι} {child host a b : Handle}

/-- Windows are nested as their parents are. -/
theorem childOf_congr (same : d'.windows = d.windows) : d'.ChildOf = d.ChildOf := by
  funext win parent
  rw [ChildOf, ChildOf, parentOf, parentOf, same]

/-- A window that is made a child of the host has this one parent, and the others have theirs. -/
theorem childOf_reparent (found : d.parentOf child ≠ none) :
    (d.reparent child host).ChildOf a b ↔ if a = child then b = host else d.ChildOf a b := by
  rw [ChildOf, parentOf, windows_reparent]
  split
  · next own =>
    subst own
    cases window : d.windows a with
    | none => exact absurd (by rw [parentOf, window]; rfl) found
    | some window => simp [eq_comm]
  · rfl

/-- Nothing comes of it if there is no such window. -/
theorem reparent_of_missing (missing : d.parentOf child = none) : d.reparent child host = d := by
  rw [reparent, Option.map_eq_none_iff.mp missing]

/-- The host gets nested in no window in which it was not nested before. -/
theorem nested_of_reparent (found : d.parentOf child ≠ none)
    (h : (d.reparent child host).Nested host a) : d.Nested host a := by
  induction h with
  | refl => exact .refl
  | tail _ edge ih =>
    rw [childOf_reparent found] at edge
    split at edge
    · rw [edge]
      exact .refl
    · exact ih.tail edge

/-- A window is nested in another one by a way that was there before, or by one from the child to
the host. -/
theorem transGen_of_reparent (found : d.parentOf child ≠ none)
    (h : Relation.TransGen (d.reparent child host).ChildOf a b) :
    Relation.TransGen d.ChildOf a b ∨ d.Nested a child ∧ d.Nested host b := by
  induction h with
  | single edge =>
    rw [childOf_reparent found] at edge
    split at edge
    · -- The last edge is the new one, so the way up to it ends in the child.
      next own => exact .inr ⟨own ▸ .refl, edge ▸ .refl⟩
    · exact .inl (.single edge)
  | tail _ edge ih =>
    rw [childOf_reparent found] at edge
    split at edge
    · next own =>
      subst own
      refine .inr ⟨?_, edge ▸ .refl⟩
      exact ih.elim Relation.TransGen.to_reflTransGen And.left
    · exact ih.imp (·.tail edge) (And.imp_right (·.tail edge))

/-- A way from the host to the child is there afterwards, unless the host is nested in itself. -/
theorem nested_reparent_or (found : d.parentOf child ≠ none) (h : d.Nested host a) :
    (d.reparent child host).Nested host a ∨
      Relation.TransGen (d.reparent child host).ChildOf host host := by
  induction h with
  | refl => exact .inl .refl
  | @tail x y _ edge ih =>
    rcases ih with way | cycle
    · by_cases own : x = child
      · -- A way through the child comes back to the host now.
        exact .inr (.tail' way ((childOf_reparent found).mpr (by rw [if_pos own])))
      · exact .inl (way.tail ((childOf_reparent found).mpr (by rwa [if_neg own])))
    · exact .inr cycle

/-- To make a window of a tree a child of the host leaves a tree if and only if the host is neither
the window nor nested in it. -/
theorem treelike_reparent_iff (treelike : d.Treelike) (found : d.parentOf child ≠ none) :
    (d.reparent child host).Treelike ↔ ¬ d.Nested host child := by
  constructor
  · intro left inside
    have back : (d.reparent child host).ChildOf child host :=
      (childOf_reparent found).mpr (by rw [if_pos rfl])
    rcases nested_reparent_or found inside with way | cycle
    · exact left host (.tail' way back)
    · exact left host cycle
  · intro outside win cycle
    rcases transGen_of_reparent found cycle with old | ⟨toChild, toHost⟩
    · exact treelike win old
    · exact outside (toHost.trans toChild)

end Desktop

/-! ## What is preserved in a call tree -/

mutual

/-- What the platform notes in the course of an act. -/
def Act.notes : Act ι ν → List ν
  | .report _ => []
  | .call _ visits _ => Visit.allNotes visits

/-- What the platform notes in the course of acts. -/
def Act.allNotes : List (Act ι ν) → List ν
  | [] => []
  | act :: rest => act.notes ++ Act.allNotes rest

/-- What the platform notes in the course of a visit. -/
def Visit.notes : Visit ι ν → List ν
  | .process _ _ acts _ => Act.allNotes acts
  | .activating _ _ handling _ handingOn _ => Act.allNotes handling ++ Act.allNotes handingOn
  | .look _ _ => []
  | .note n => [n]

/-- What the platform notes in the course of visits. -/
def Visit.allNotes : List (Visit ι ν) → List ν
  | [] => []
  | visit :: rest => visit.notes ++ Visit.allNotes rest

end

/-- What the platform notes in the course of an operation. -/
def Record.notes : Record ι ν → List ν
  | create _ _ acts _ => Act.allNotes acts
  | install _ _ acts _ => Act.allNotes acts
  | uninstall _ acts _ => Act.allNotes acts
  | drop _ acts _ => Act.allNotes acts
  | visit v => v.notes

section Preserves

/-- The effect of the request preserves the property. -/
def Request.Preserves (I : Desktop ι → Prop) (r : Request) : Prop := ∀ d, I d → I (d.effect r)

/-- So does every request in the handling of the event. -/
def Handling.Preserves (I : Desktop ι → Prop) (h : Handling ι ν) : Prop :=
  ∀ r ∈ Act.requests h.acts, r.Preserves I

/-- The step that the desktop takes by itself preserves the property. -/
def Note.Preserves (I : Desktop ι → Prop) (n : Note) : Prop := ∀ d, I d → I (n.effect d)

/-- To hand an event on preserves anything. -/
theorem Embedder.HandsOn.preserves {I : Desktop ι → Prop} {x : Embedder} {event : Event}
    {outcome : Ending ActivationOutcome} {acts : List (Act ι ν)} {ending : Ending Int64}
    (h : x.HandsOn event outcome acts ending) : ∀ r ∈ Act.requests acts, r.Preserves I := by
  intro r asked d inv
  rwa [Desktop.effect_of_isForward (h.requests r asked) d]

variable [DecidableEq ι] {I : Desktop ι → Prop}

mutual

/-- What the requests of the acts, of the handlings in the course of them and the steps of the
desktop preserve is preserved by the acts. -/
theorem Act.Takes.preserves {roster : Roster ι} {d d' : Desktop ι} {acts : List (Act ι Note)}
    {lost : Bool} (h : Act.Takes d acts lost d') (arise : Act.Arise roster acts)
    (own : ∀ r ∈ Act.requests acts, r.Preserves I)
    (nested : ∀ h ∈ Act.allHandlings acts, h.Preserves I)
    (noted : ∀ n ∈ Act.allNotes acts, n.Preserves I) (inv : I d) : I d' :=
  match h with
  | .nil => inv
  | .report rest => by
    cases arise with
    | report arise => exact rest.preserves arise own nested noted inv
  | .answered _ visited rest => by
    cases arise with
    | call during later =>
      -- The request takes effect first, then the visits take place, and then the program goes on.
      obtain ⟨first, own⟩ := List.forall_mem_cons.mp own
      obtain ⟨inside, nested⟩ := List.forall_mem_append.mp nested
      obtain ⟨meanwhile, noted⟩ := List.forall_mem_append.mp noted
      have kept := visited.preserves during inside meanwhile (first _ inv)
      exact rest.preserves later own nested noted kept
  | .cutShort visited => by
    cases arise with
    | call during _ =>
      have inside := (List.forall_mem_append.mp nested).1
      have meanwhile := (List.forall_mem_append.mp noted).1
      exact visited.preserves during inside meanwhile (own _ List.mem_cons_self _ inv)

/-- What the requests of all handlings and the steps of the desktop preserve is preserved by visits.
-/
theorem Visit.Takes.preserves {roster : Roster ι} {d d' : Desktop ι}
    {visits : List (Visit ι Note)} {lost : Bool} (h : Visit.Takes d visits lost d')
    (arise : Visit.Arise roster visits)
    (nested : ∀ h ∈ Visit.allHandlings visits, h.Preserves I)
    (noted : ∀ n ∈ Visit.allNotes visits, n.Preserves I) (inv : I d) : I d' :=
  match h with
  | .nil => inv
  | .process acts rest => by
    cases arise with
    | process _ during later =>
      obtain ⟨first, nested⟩ := List.forall_mem_append.mp nested
      obtain ⟨meanwhile, noted⟩ := List.forall_mem_append.mp noted
      obtain ⟨own, inside⟩ := List.forall_mem_cons.mp first
      have kept := acts.preserves during own inside meanwhile inv
      exact rest.preserves later nested noted kept
  | .processLost acts => by
    cases arise with
    | process _ during _ =>
      have meanwhile := (List.forall_mem_append.mp noted).1
      obtain ⟨own, inside⟩ := List.forall_mem_cons.mp (List.forall_mem_append.mp nested).1
      exact acts.preserves during own inside meanwhile inv
  | .activating handling handingOn rest => by
    cases arise with
    | activating _ during handsOn onward later =>
      obtain ⟨first, nested⟩ := List.forall_mem_append.mp nested
      obtain ⟨meanwhile, noted⟩ := List.forall_mem_append.mp noted
      obtain ⟨own, inside⟩ := List.forall_mem_cons.mp first
      obtain ⟨inside, outside⟩ := List.forall_mem_append.mp inside
      obtain ⟨meanwhile, afterwards⟩ := List.forall_mem_append.mp meanwhile
      -- Handing the event on asks for nothing that could break the property.
      have handled := handling.preserves during own inside meanwhile inv
      have kept := handingOn.preserves onward handsOn.preserves outside afterwards handled
      exact rest.preserves later nested noted kept
  | .handlingLost handling => by
    cases arise with
    | activating _ during _ _ _ =>
      obtain ⟨own, inside⟩ := List.forall_mem_cons.mp (List.forall_mem_append.mp nested).1
      have inside := (List.forall_mem_append.mp inside).1
      have meanwhile := (List.forall_mem_append.mp (List.forall_mem_append.mp noted).1).1
      exact handling.preserves during own inside meanwhile inv
  | .handingOnLost handling handingOn => by
    cases arise with
    | activating _ during handsOn onward _ =>
      obtain ⟨own, inside⟩ := List.forall_mem_cons.mp (List.forall_mem_append.mp nested).1
      obtain ⟨inside, outside⟩ := List.forall_mem_append.mp inside
      obtain ⟨meanwhile, afterwards⟩ :=
        List.forall_mem_append.mp (List.forall_mem_append.mp noted).1
      have handled := handling.preserves during own inside meanwhile inv
      exact handingOn.preserves onward handsOn.preserves outside afterwards handled
  | .look rest => by
    cases arise with
    | look later => exact rest.preserves later nested noted inv
  | .note rest => by
    cases arise with
    | note later =>
      obtain ⟨first, noted⟩ := List.forall_mem_cons.mp noted
      exact rest.preserves later nested noted (first _ inv)

end

end Preserves

/-! ## Embeddings in a tree -/

/-- An embedder gives a parent to no window but the activated one, after it was told that this is of
the configured class, and the parent is its host. -/
theorem Embedder.Responds.adopts {x : Embedder} {win child parent : Handle} {acts : List (Act ι ν)}
    {ending : Ending ActivationOutcome} (h : x.Responds win acts ending)
    (asked : .mutate (.setParent child parent) ∈ Act.requests acts) :
    child = win ∧
      (∃ installation, x.installation = some installation ∧ parent = installation.host) ∧
      Act.Tells acts (.className win classNameCapacity) (.ok x.options.plotClass) := by
  obtain ⟨installation, size, installed, step⟩ := h.mem_steps _ asked
  -- Of the steps only one gives a window a parent, and it names this window and the host.
  have aims : child = win ∧ parent = installation.host := by
    simpa [steps] using step
  refine ⟨aims.1, ⟨installation, installed, aims.2⟩, ?_⟩
  cases h with
  | inactive _ => cases asked
  | classPanic _ => cases List.mem_singleton.mp asked
  | mismatch _ _ =>
    rw [Act.requests, Act.requests_reports] at asked
    cases List.mem_singleton.mp asked
  | parentPanic _ => exact ⟨_, List.mem_cons_self⟩
  | already _ => exact ⟨_, List.mem_cons_self⟩
  | embeds _ _ _ => exact ⟨_, List.mem_cons_self⟩

/-- A handling in which anything is asked for was begun in the state in which its embedder was
before. -/
theorem Visit.Arise.handles_of_asks [DecidableEq ι] {roster : Roster ι} {visits : List (Visit ι ν)}
    (h : Visit.Arise roster visits) : ∀ handling ∈ Visit.allHandlings visits,
      Act.requests handling.acts ≠ [] →
      (roster handling.embedder).Handles handling.event handling.acts handling.ending := by
  -- The invariant says of every embedder that it is as it was, or busy.
  refine h.forall_handling (I := fun between => ∀ e, (roster e).Awaits e between) ?_ ?_ ?_
  · exact fun name awaits e => (awaits e).busy name
  · intro between e event acts ending awaits handles asked
    rcases awaits e with same | busy
    · exact same ▸ handles
    · -- A busy embedder asks for nothing.
      cases handles with
      | other _ => exact absurd rfl asked
      | refused _ _ => exact absurd rfl asked
      | responds _ idle _ => exact absurd (idle.symm.trans busy) Bool.false_ne_true
  · exact fun e => .inl rfl

/-- In the course of the operation events are for embedders with this host only, the desktop touches
no window by itself, and no window is activated that is told to be of the configured class and that
is the host or had the host nested in it at first. -/
structure Record.Spares (roster : Roster ι) (first : Desktop ι) (host : Handle)
    (record : Record ι Note) : Prop where
  hosted : ∀ h ∈ record.handlings, ∀ installation,
    (roster h.embedder).installation = some installation → installation.host = host
  untouched : ∀ n ∈ record.notes, n.touched = []
  outside : ∀ h ∈ record.handlings, ∀ win, h.event.activating? = some win →
    Act.Tells h.acts (.className win classNameCapacity)
      (.ok (roster h.embedder).options.plotClass) → ¬ first.Nested host win

namespace Desktop

variable {first d d' : Desktop ι} {host : Handle}

/-- The windows form a tree, and the host is nested in no window in which it was not nested at
first. -/
structure Rooted (first : Desktop ι) (host : Handle) (d : Desktop ι) : Prop where
  treelike : d.Treelike
  nested : ∀ win, d.Nested host win → first.Nested host win

/-- That depends on nothing but the windows. -/
theorem Rooted.congr (rooted : Rooted first host d) (same : d'.windows = d.windows) :
    Rooted first host d' := by
  obtain ⟨treelike, nested⟩ := rooted
  unfold Treelike Nested at *
  rw [← childOf_congr same] at treelike nested
  exact ⟨treelike, nested⟩

/-- It is preserved by requests that give no parent but the host, and none to a window in which the
host is nested. -/
theorem Rooted.request {r : Request}
    (h : ∀ child parent, r = .mutate (.setParent child parent) →
      parent = host ∧ ¬ first.Nested host child) : r.Preserves (Rooted first host) := by
  intro d rooted
  rcases d.effect_cases r with ⟨child, parent, rfl, -, same⟩ | ⟨-, same⟩
  · obtain ⟨rfl, outside⟩ := h child parent rfl
    refine Rooted.congr ?_ same
    by_cases found : d.parentOf child = none
    · rwa [reparent_of_missing found]
    · have free := mt (rooted.nested child) outside
      exact ⟨(treelike_reparent_iff rooted.treelike found).mpr free,
        fun win inside => rooted.nested win (nested_of_reparent found inside)⟩
  · exact rooted.congr same

/-- It is preserved by what the desktop does by itself, if that touches no window. -/
theorem Rooted.note {n : Note} (untouched : n.touched = []) : n.Preserves (Rooted first host) := by
  intro d rooted
  refine rooted.congr (funext fun win => windows_note ?_)
  rw [untouched]
  exact List.not_mem_nil

variable [DecidableEq ι]

/-- A call that an embedder gets is one visit, which takes its course. -/
theorem takes_call {call : Callback ι} {world world' : World ι (Desktop ι)} {record : Record ι Note}
    (h : operate call.operation world = (record, world')) :
    ∃ visit lost, record = .visit visit ∧ Visit.Arise world.embedders [visit] ∧
      Visit.Takes world.platform.still [visit] lost world'.platform.still := by
  rw [operate_eq_iff] at h
  have coursing := coursing_visit (ι := ι) world.platform.pending
  have took : ∃ visit lost, record = .visit visit ∧
      Visit.Takes world.platform.still [visit] lost world'.platform.still := by
    cases call with
    | process e event =>
      obtain ⟨⟨acts, ending, after⟩, processed, heq⟩ := Option.map_eq_some_iff.mp h
      cases heq
      have takes := takes_process coursing processed
      cases ending with
      | returned outcome => exact ⟨_, _, rfl, .process takes .nil⟩
      | unwound panic => exact ⟨_, _, rfl, .processLost takes⟩
    | activating e event =>
      obtain ⟨⟨visit, ending, after⟩, activated, heq⟩ := Option.map_eq_some_iff.mp h
      cases heq
      exact ⟨_, _, rfl, takes_activating coursing activated⟩
  obtain ⟨visit, lost, rfl, takes⟩ := took
  rcases (platform.arises_operate h).upkeep_or_visit with ⟨_, _, _, upkeep, -⟩ | ⟨_, same, arise⟩
  · -- A call is no upkeep, so it is the visit that was found.
    exact nomatch upkeep
  · cases same
    exact ⟨visit, lost, rfl, arise, takes⟩

/-- In the course of a call, nothing gets a parent but the host, and no window in which the host was
nested at first gets one. -/
theorem adopts_of_call {call : Callback ι} {world world' : World ι (Desktop ι)}
    {record : Record ι Note} (h : operate call.operation world = (record, world'))
    (spares : record.Spares world.embedders first host) :
    ∀ handling ∈ record.handlings, ∀ child parent,
      .mutate (.setParent child parent) ∈ Act.requests handling.acts →
      parent = host ∧ ¬ first.Nested host child := by
  obtain ⟨visit, lost, rfl, arise, -⟩ := takes_call h
  rintro ⟨e, event, acts, ending⟩ among child parent asked
  -- Something was asked for, so the handling began in the state from before the call.
  have begun := arise.handles_of_asks _ (by rwa [Visit.allHandlings_singleton])
    (List.ne_nil_of_mem asked)
  have hosted := spares.hosted _ among
  have outside := spares.outside _ among
  cases begun with
  | other _ => exact nomatch asked
  | refused _ _ => exact nomatch asked
  | responds activated _ run =>
    obtain ⟨rfl, ⟨installation, installed, rfl⟩, told⟩ :=
      (Embedder.responds_of_allows run).adopts asked
    exact ⟨hosted installation installed, outside _ activated told⟩

/-- A call leaves a tree behind. -/
theorem rooted_of_call {call : Callback ι} {world world' : World ι (Desktop ι)}
    {record : Record ι Note} (h : operate call.operation world = (record, world'))
    (spares : record.Spares world.embedders first host)
    (rooted : Rooted first host world.platform) : Rooted first host world'.platform := by
  have adopts := adopts_of_call h spares
  obtain ⟨visit, lost, rfl, arise, takes⟩ := takes_call h
  rw [Record.handlings, ← Visit.allHandlings_singleton] at adopts
  have nested : ∀ handling ∈ Visit.allHandlings [visit],
      handling.Preserves (Rooted first host) := by
    intro handling among r asked
    refine Rooted.request fun child parent same => ?_
    subst same
    exact adopts handling among child parent asked
  have noted : ∀ n ∈ Visit.allNotes [visit], n.Preserves (Rooted first host) := by
    intro n among
    rw [Visit.allNotes, Visit.allNotes, List.append_nil] at among
    exact Rooted.note (spares.untouched n among)
  -- The steps that wait are no part of it.
  have still : Rooted first host world.platform.still := rooted.congr rfl
  exact (takes.preserves arise nested noted still).congr rfl

/-- So do calls one after the other. What was nested at first stays fixed meanwhile. -/
theorem rooted_of_calls {calls : List (Callback ι)} {world world' : World ι (Desktop ι)}
    {records : List (Record ι Note)}
    (h : operateAll (calls.map Callback.operation) world = (records, world'))
    (spares : ∀ record ∈ records, record.Spares world.embedders first host)
    (rooted : Rooted first host world.platform) :
    Rooted first host world'.platform ∧ ∀ record ∈ records, ∀ handling ∈ record.handlings,
      ∀ child parent, .mutate (.setParent child parent) ∈ Act.requests handling.acts →
        parent = host ∧ ¬ first.Nested host child := by
  induction calls generalizing world records with
  | nil =>
    cases h
    exact ⟨rooted, nofun⟩
  | cons call calls ih =>
    rw [List.map_cons, operateAll] at h
    rcases operated : operate call.operation world with ⟨record, after⟩
    rcases later : operateAll (calls.map Callback.operation) after with ⟨others, last⟩
    simp only [operated, later, Prod.mk.injEq] at h
    obtain ⟨rfl, rfl⟩ := h
    obtain ⟨now, spares⟩ := List.forall_mem_cons.mp spares
    -- A call leaves every embedder as it was, so that what the later records spare is the same.
    have same : after.embedders = world.embedders :=
      (platform.embedders_of_call _ call world after).2 record (operate_eq_iff.mp operated)
    rw [← same] at spares
    obtain ⟨left, adopts⟩ := ih later spares (rooted_of_call operated now rooted)
    exact ⟨left, List.forall_mem_cons.mpr ⟨adopts_of_call operated now, adopts⟩⟩

/-- The embedders that get events on a desktop have one host. If the windows form a tree, and if no
window is activated that is told to be of the configured class and that is the host or has the host
nested in it, the windows still form a tree after any number of events, as far as the desktop leaves
them alone, and no window was made a child of itself or of a window that is nested in it. -/
theorem treelike_of_calls {calls : List (Callback ι)} {world world' : World ι (Desktop ι)}
    {records : List (Record ι Note)} (treelike : world.platform.Treelike)
    (h : operateAll (calls.map Callback.operation) world = (records, world'))
    (spares : ∀ record ∈ records, record.Spares world.embedders world.platform host) :
    world'.platform.Treelike ∧ ∀ record ∈ records, ∀ handling ∈ record.handlings,
      ∀ child parent, .mutate (.setParent child parent) ∈ Act.requests handling.acts →
        child ≠ parent ∧ ¬ world.platform.Nested parent child := by
  obtain ⟨rooted, adopts⟩ := rooted_of_calls h spares ⟨treelike, fun win inside => inside⟩
  refine ⟨rooted.treelike, fun record among handling during child parent asked => ?_⟩
  obtain ⟨rfl, outside⟩ := adopts record among handling during child parent asked
  refine ⟨?_, outside⟩
  rintro rfl
  exact outside .refl

/-- The pestered desktop with a host that is nested in a frame. -/
def framed : World Nat (Desktop Nat) :=
  { pestered with
    platform :=
      { pestered.platform with
        windows := fun win =>
          if win = ⟨1⟩ then some { parent := some ⟨5⟩, clientArea := some {} }
          else pestered.platform.windows win } }

/-- Both plots are embedded into the host in the frame, with further events in the middle of it. -/
theorem treelike_of_framed : ∃ records world',
    operateAll [.activating 0 (.activation ⟨2⟩), .process 0 (.activation ⟨3⟩)] framed =
      (records, world') ∧
    world'.platform.parentOf ⟨2⟩ = some (some ⟨1⟩) ∧
    world'.platform.parentOf ⟨3⟩ = some (some ⟨1⟩) ∧ world'.platform.Treelike := by
  -- The host in its frame is the only child at first, so there is not much to be nested in.
  have edge : ∀ {win parent}, framed.platform.ChildOf win parent → win = ⟨1⟩ ∧ parent = ⟨5⟩ := by
    intro win parent child
    by_cases own : win = ⟨1⟩
    · subst own
      exact ⟨rfl, (Option.some.inj (Option.some.inj child)).symm⟩
    · simp only [ChildOf, parentOf, framed, pestered, crowded, own, if_false] at child
      split at child <;> simp at child
  -- A cycle would leave a window and come back to it, by edges that there are not.
  have treelike : framed.platform.Treelike := by
    intro win cycle
    obtain ⟨_, out, -⟩ := Relation.TransGen.head'_iff.mp cycle
    obtain ⟨_, -, back⟩ := Relation.TransGen.tail'_iff.mp cycle
    exact absurd ((edge out).1.symm.trans (edge back).2) (by decide)
  have above : ∀ {win}, framed.platform.Nested ⟨1⟩ win → win = ⟨1⟩ ∨ win = ⟨5⟩ := by
    intro win inside
    cases inside with
    | refl => exact .inl rfl
    | tail _ last => exact .inr (edge last).2
  have ends : (∀ record ∈ (operateAll [.activating 0 (.activation ⟨2⟩),
        .process 0 (.activation ⟨3⟩)] framed).1,
      (∀ h ∈ record.handlings, h.embedder = 0 ∧
        h.event.activating? ≠ some ⟨1⟩ ∧ h.event.activating? ≠ some ⟨5⟩) ∧
      ∀ n ∈ record.notes, n.touched = []) ∧
      ∀ win ∈ [⟨2⟩, ⟨3⟩], (operateAll [.activating 0 (.activation ⟨2⟩),
        .process 0 (.activation ⟨3⟩)] framed).2.platform.parentOf win = some (some ⟨1⟩) := by
    decide +kernel
  rcases ran : operateAll [.activating 0 (.activation ⟨2⟩), .process 0 (.activation ⟨3⟩)] framed
    with ⟨records, world'⟩
  rw [ran] at ends
  obtain ⟨calm, moved⟩ := ends
  have spares : ∀ record ∈ records,
      record.Spares framed.embedders framed.platform ⟨1⟩ := by
    intro record among
    obtain ⟨handlings, untouched⟩ := calm record among
    refine ⟨?_, untouched, ?_⟩
    · intro h during installation installed
      rw [(handlings h during).1] at installed
      exact congrArg Installation.host (Option.some.inj installed).symm
    · intro h during win activated _ inside
      obtain ⟨-, notHost, notFrame⟩ := handlings h during
      rcases above inside with rfl | rfl
      · exact notHost activated
      · exact notFrame activated
  have called : operateAll ([Callback.activating 0 (.activation ⟨2⟩),
      .process 0 (.activation ⟨3⟩)].map Callback.operation) framed = (records, world') := ran
  have left := (treelike_of_calls treelike called spares).1
  obtain ⟨second, third, -⟩ := by simpa only [List.forall_mem_cons] using moved
  exact ⟨records, world', rfl, second, third, left⟩

/-- The desktop on which nothing goes wrong, with a host of the class that the embedders look for.
-/
def selfish : World Nat (Desktop Nat) :=
  { crowded with
    platform :=
      { windows := fun win =>
          if win = ⟨1⟩ then
            some { className := some (Text.encode defaultPlotClass), clientArea := some {} }
          else crowded.platform.windows win } }

/-- A host of the configured class is made a child of itself when it is activated. -/
theorem lost_tree_of_selfish :
    selfish.platform.Treelike ∧ ∃ acts ending world',
      operate (.process 0 (.activation ⟨1⟩)) selfish =
        (.visit (.process 0 (.activation ⟨1⟩) acts ending), world') ∧
      .mutate (.setParent ⟨1⟩ ⟨1⟩) ∈ Act.requests acts ∧ ¬ world'.platform.Treelike := by
  constructor
  · -- At first no window has a parent.
    intro win cycle
    obtain ⟨parent, child, -⟩ := Relation.TransGen.head'_iff.mp cycle
    simp only [ChildOf, parentOf, selfish, crowded] at child
    split at child
    · simp at child
    · split at child <;> simp at child
  · have ran : ((platform.process (platform.visit selfish.platform.pending) 0 (.activation ⟨1⟩)
        selfish).map fun run => decide (.mutate (.setParent ⟨1⟩ ⟨1⟩) ∈ Act.requests run.trace ∧
          run.world.platform.parentOf ⟨1⟩ = some (some ⟨1⟩))) = some true := by
      decide +kernel
    obtain ⟨⟨acts, ending, world'⟩, processed, outcome⟩ := Option.map_eq_some_iff.mp ran
    obtain ⟨asked, itself⟩ := of_decide_eq_true outcome
    refine ⟨acts, ending, world', operate_of_process processed, asked, fun treelike => ?_⟩
    exact treelike ⟨1⟩ (.single itself)

end Desktop

end PlotEmbedding
