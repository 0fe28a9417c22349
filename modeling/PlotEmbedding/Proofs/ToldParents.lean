import PlotEmbedding.Proofs.Interruption
import PlotEmbedding.Proofs.Reentry
import PlotEmbedding.Proofs.Undisturbed

/-!
# Parents as outcomes tell them

Embedders with different hosts may compete for the same windows. Who has got a window in the end can
be told from the outcomes alone: `toldParent` goes through all that happened to a desktop, of which
it believes that a window is created with its parent, and that an embedder which says that it has
embedded a window has made it a child of the host that it is installed with at the time.

It is right as long as no steps wait and the reading and changing of parents meets no fault, which
is `World.Candid`. `World.parentOf_handled` says so of one handling and `Desktop.parentOf_enact` of
anything that is done to the desktop, and `Desktop.parents_told` of whatever is done in a row. The
next outcome can be told from there as well, by `World.ending_handle`.
-/

namespace PlotEmbedding

variable {ι ν α : Type}

/-! ## What is told -/

/-- The parent of a window once a change has told of it, or the one that was known before. -/
def Change.told (win : Handle) (known : Option (Option Handle)) : Change → Option (Option Handle)
  | .window other created => if win = other then some created.parent else known
  | .destroy other => if win = other then none else known
  | _ => known

/-- The parent of a window once a handling has told of it: the host of an embedder that says that it
has embedded the window. -/
def Handling.told (hosts : ι → Option Handle) (win : Handle) (known : Option (Option Handle))
    (h : Handling ι ν) : Option (Option Handle) :=
  match h.ending with
  | .returned (.embedded _) =>
    if h.event.activating? = some win then some (hosts h.embedder) else known
  | _ => known

/-- Something that is done to a desktop from outside. -/
inductive Deed (ι : Type) where
  /-- The desktop is changed. -/
  | change (change : Change)
  /-- The owner of embedders does something. -/
  | operation (operation : Operation ι)
  deriving DecidableEq

/-- What is known of a deed. -/
inductive Happening (ι : Type) where
  /-- The desktop was changed. -/
  | changed (change : Change)
  /-- An operation came to this, while embedders were installed with these hosts. -/
  | operated (hosts : ι → Option Handle) (record : Record ι Note)

namespace Happening

/-- The handlings in the course of a deed. -/
def handlings : Happening ι → List (Handling ι Note)
  | changed _ => []
  | operated _ record => record.handlings

/-- The parent of a window once a deed has told of it, or the one that was known before. -/
def told (win : Handle) (known : Option (Option Handle)) : Happening ι → Option (Option Handle)
  | changed change => change.told win known
  | operated hosts record => record.handlings.foldl (Handling.told hosts win) known

end Happening

/-- The parent of a window as the last of the happenings has told of it, or the one that was known
before. -/
def toldParent (win : Handle) (known : Option (Option Handle)) (log : List (Happening ι)) :
    Option (Option Handle) :=
  log.foldl (Happening.told win) known

/-- The parent of a window once the request has taken effect, if no fault is met. -/
def Request.parentAfter (win : Handle) (known : Option (Option Handle)) :
    Request → Option (Option Handle)
  | mutate (.setParent child target) =>
    if win = child then known.map fun _ => some target else known
  | _ => known

/-- Requests that change no window leave its parent as it is. -/
theorem Request.parentAfter_of_no_mutation {requests : List Request}
    (quiet : requests.filterMap Request.mutation? = []) (win : Handle)
    (known : Option (Option Handle)) : requests.foldl (parentAfter win) known = known := by
  refine List.foldlRecOn (motive := fun left => left = known) _ _ rfl fun left same r among => ?_
  have idle : r.mutation? = none := List.filterMap_eq_nil_iff.mp quiet r among
  cases r with
  | mutate mutation => exact nomatch idle
  | _ => exact same

/-- The requests of embedding a window make it a child of the host, if it exists, and leave the
parents of all others as they are. -/
theorem Request.parentAfter_of_steps (options : Options) (host target : Handle) (size : Size)
    (win : Handle) (known : Option (Option Handle)) :
    (.className target classNameCapacity :: .parent target ::
      Embedder.steps options host target size).foldl (parentAfter win) known =
        if win = target then known.map fun _ => some host else known := rfl

namespace Desktop

variable {d : Desktop ι} {win : Handle}

/-- A change tells the truth about parents. -/
theorem parentOf_apply (d : Desktop ι) (change : Change) (win : Handle) :
    (d.apply change).parentOf win = change.told win (d.parentOf win) := by
  cases change with
  | window other window => exact apply_ite (Option.map Window.parent) ..
  | destroy other => exact apply_ite (Option.map Window.parent) ..
  | _ => rfl

/-- If making windows children of others meets no fault, then parents are as requests make them. -/
theorem parentOf_effect_of_healthy (healthy : d.faults .setParent = none) (r : Request) :
    (d.effect r).parentOf win = r.parentAfter win (d.parentOf win) := by
  rcases d.effect_cases r with ⟨child, target, rfl, -, same⟩ | ⟨faulty, same⟩
  · rw [parentOf, same, windows_reparent, Request.parentAfter, parentOf]
    split
    · rw [Option.map_map, Option.map_map]
      rfl
    · rfl
  · have idle : r.parentAfter win (d.parentOf win) = d.parentOf win := by
      unfold Request.parentAfter
      split
      · exact absurd healthy (faulty _ _ rfl)
      · rfl
    rw [idle, parentOf, same, parentOf]

/-- After an undisturbed run, parents are as the requests in turn have made them. -/
theorem parentOf_undisturbed (healthy : d.faults .setParent = none) (p : Program α) :
    (p.undisturbed d).desktop.parentOf win =
      (Act.requests (p.undisturbed d).trace).foldl (Request.parentAfter win) (d.parentOf win) := by
  rw [p.desktop_undisturbed d]
  generalize Act.requests (p.undisturbed d).trace = requests
  induction requests generalizing d with
  | nil => rfl
  | cons r rest ih =>
    have healthy' : (d.effect r).faults .setParent = none := by rw [faults_effect, healthy]
    rw [List.foldl_cons, ih healthy', parentOf_effect_of_healthy healthy, List.foldl_cons]

/-- The first request of an undisturbed run is answered as the desktop has it. -/
theorem reply_of_undisturbed {p : Program α} {r : Request} {visits : List (Visit ι Note)}
    {ending : Ending r.Answer} {later : List (Act ι Note)}
    (first : (p.undisturbed d).trace = .call r visits ending :: later) : d.reply r = ending := by
  cases p with
  | finish ending => exact nomatch first
  | report line rest => exact nomatch first
  | request r next =>
    rw [Program.undisturbed] at first
    split at first
    · next reply =>
      cases first
      exact reply
    · next reply =>
      cases first
      exact reply

/-- Every answer in an undisturbed run is the one of a desktop with the same faults. -/
theorem reply_of_tells {p : Program α} {r : Request} {answer : r.Answer}
    (told : Act.Tells (p.undisturbed d).trace r answer) :
    ∃ left : Desktop ι, left.faults = d.faults ∧ left.reply r = .returned answer := by
  induction p generalizing d with
  | finish ending =>
    obtain ⟨_, among⟩ := told
    cases among
  | report line rest ih =>
    obtain ⟨visits, among⟩ := told
    exact ih ⟨visits, (List.mem_cons.mp among).resolve_left (by simp)⟩
  | request asked next ih =>
    obtain ⟨visits, among⟩ := told
    rw [Program.undisturbed] at among
    split at among
    · next answer reply =>
      rcases List.mem_cons.mp among with heq | among
      · cases heq
        exact ⟨d, rfl, reply⟩
      · obtain ⟨left, faults, reply⟩ := ih _ ⟨visits, among⟩
        exact ⟨left, faults.trans (d.faults_effect asked), reply⟩
    · rcases List.mem_cons.mp among with heq | among
      · cases heq
      · cases among

end Desktop

/-! ## One handling -/

section Handled

variable {e : ι} {event : Event} {world : World ι (Desktop ι)}

/-- The hosts that the embedders are installed with. -/
def World.hosts (world : World ι (Desktop ι)) (e : ι) : Option Handle := (world.embedders e).host?

/-- A handling tells nothing unless it embeds a window. -/
theorem Handling.told_of_quiet {h : Handling ι ν} (quiet : h.Quiet) (hosts : ι → Option Handle)
    (win : Handle) (known : Option (Option Handle)) : h.told hosts win known = known := by
  unfold Handling.told
  split
  · next size embedded => exact absurd embedded (quiet.2 size)
  · rfl

/-- A handling that returns tells the truth about parents. -/
theorem World.parentOf_handled (healthy : world.platform.faults .setParent = none)
    (returns : (world.handle e event).ending.unwinds = false) (win : Handle) :
    (world.handled e event).platform.parentOf win =
      Handling.told world.hosts win (world.platform.parentOf win)
        ⟨e, event, (world.handle e event).trace, (world.handle e event).ending⟩ := by
  have parent : (world.handled e event).platform.parentOf win =
      (Act.requests (world.handle e event).trace).foldl (Request.parentAfter win)
        (world.platform.parentOf win) := Desktop.parentOf_undisturbed healthy _
  rw [parent]
  have handles : (world.embedders e).Handles event (world.handle e event).trace
      (world.handle e event).ending :=
    Embedder.handles_of_allows (Program.undisturbed_allows ((world.embedders e).handle event) _)
  have first : ∀ {r visits ending later},
      (world.handle e event).trace = .call r visits ending :: later →
      world.platform.reply r = ending := Desktop.reply_of_undisturbed
  generalize world.handle e event = solo at *
  obtain ⟨trace, ending, d⟩ := solo
  -- A quiet handling changes no parent and has no outcome that would tell of one.
  have still : Handling.Quiet ⟨e, event, trace, ending⟩ →
      (Act.requests trace).foldl (Request.parentAfter win) (world.platform.parentOf win) =
        Handling.told world.hosts win (world.platform.parentOf win) ⟨e, event, trace, ending⟩ := by
    intro quiet
    rw [Handling.told_of_quiet quiet, Request.parentAfter_of_no_mutation quiet.1]
  cases activated : event.activating? with
  | none =>
    cases handles with
    | other _ => exact still (Handling.quiet_of_acts_eq_nil rfl nofun)
    | refused announced _ => exact nomatch announced.symm.trans activated
    | responds announced _ _ => exact nomatch announced.symm.trans activated
  | some target =>
    rcases handles.quiet_or_embeds (e := e) activated with
      quiet | ⟨installation, visits, visits', answer, later, installed, other, rfl, run⟩
    · exact still quiet
    · obtain ⟨size, ⟨all, rfl⟩ | ⟨-, panic, rfl⟩⟩ := Embedder.embed_allows run
      · have found := Desktop.parentOf_of_className (first rfl)
        have host : world.hosts e = some installation.host := by
          rw [World.hosts, Embedder.host?, installed]
          rfl
        rw [Act.requests, Act.requests, all, Request.parentAfter_of_steps, Handling.told]
        by_cases own : win = target
        · subst own
          rw [if_pos rfl, if_pos activated, host]
          cases known : world.platform.parentOf win with
          | none => exact absurd known found
          | some parent => rfl
        · rw [if_neg own, if_neg fun same => own (Option.some.inj (same.symm.trans activated))]
      · exact nomatch returns

/-- Unless something unwinds in it, the handling of an activation by an installed embedder embeds a
window of the configured class that is no child of the host, and finds out about one that is. -/
theorem World.ending_handle [DecidableEq ι] {win : Handle} {installation : Installation}
    (quiet : world.platform.triggers = []) (healthy : world.platform.faults .parent = none)
    (installed : (world.embedders e).installation = some installation)
    (idle : (world.embedders e).processing = false) (activated : event.activating? = some win)
    (bears : world.platform.reply (.className win classNameCapacity) =
      .returned (.ok (world.embedders e).options.plotClass))
    (untroubled : ∀ act ∈ (world.handle e event).trace, act.untroubled = true) :
    (world.platform.parentOf win = some (some installation.host) →
      (world.handle e event).ending = .returned .alreadyEmbedded) ∧
    (world.platform.parentOf win ≠ some (some installation.host) →
      ∃ size, (world.handle e event).ending = .returned (.embedded size)) := by
  obtain ⟨acts, ending, done, operated, completes⟩ :=
    Desktop.operate_activation installed idle activated bears
  have operated' := Desktop.operate_of_process (Desktop.process_quiet quiet _ e event)
  obtain ⟨visit, -⟩ := Prod.mk.inj (operated.symm.trans operated')
  obtain ⟨-, -, rfl, rfl⟩ := Visit.process.inj (Record.visit.inj visit)
  have spared : win ∉ Visit.allTouched (Act.visits (world.handle e event).trace) := by
    rw [World.handle, Program.visits_undisturbed]
    exact List.not_mem_nil
  obtain ⟨embeds, already⟩ := completes untroubled spared
  refine ⟨fun child => (already child fun failure told => ?_).1, fun free => ?_⟩
  · -- The question about the parent cannot fail, for faults neither come nor go on a still desktop.
    obtain ⟨left, faults, reply⟩ := Desktop.reply_of_tells told
    have healthy' : left.faults (Request.parent win).kind = none :=
      (congrFun faults .parent).trans healthy
    rw [Desktop.reply_of_healthy healthy'] at reply
    exact nomatch reply
  · obtain ⟨size, embedded, -⟩ := embeds free
    exact ⟨size, embedded⟩

end Handled

/-! ## Deeds in a row -/

/-- No steps wait, no embedder deals with an activation, and parents are read and changed without
fail. -/
structure World.Candid (world : World ι (Desktop ι)) : Prop where
  quiet : world.platform.triggers = []
  idle : ∀ e, (world.embedders e).processing = false
  parent : world.platform.faults .parent = none
  setParent : world.platform.faults .setParent = none

/-- The deed plants no fault on the reading or changing of parents. -/
def Deed.Candid : Deed ι → Prop
  | change (.fault on _) => on ≠ .parent ∧ on ≠ .setParent
  | _ => True

namespace Desktop

variable [DecidableEq ι]

/-- Does a deed. -/
def enact (world : World ι (Desktop ι)) : Deed ι → Happening ι × World ι (Desktop ι)
  | .change change =>
    (.changed change, { world with platform := world.platform.apply change })
  | .operation operation =>
    let (record, after) := operate operation world
    (.operated world.hosts record, after)

/-- Does deeds in a row. What is told is what happened, and the world at the end. -/
def enactAll : List (Deed ι) → World ι (Desktop ι) → List (Happening ι) × World ι (Desktop ι)
  | [], world => ([], world)
  | deed :: rest, world =>
    let (happening, after) := enact world deed
    let (log, last) := enactAll rest after
    (happening :: log, last)

variable {world : World ι (Desktop ι)}

/-- Operations leave the faults and the steps that wait as they are. -/
theorem operate_leaves (quiet : world.platform.triggers = []) (operation : Operation ι) :
    (operate operation world).2.platform.faults = world.platform.faults ∧
      (operate operation world).2.platform.triggers = world.platform.triggers := by
  by_cases call : ∃ call : Callback ι, call.operation = operation
  · obtain ⟨call, rfl⟩ := call
    obtain ⟨visit, operated, -⟩ := operate_call_quiet quiet call
    rw [operated]
    exact ⟨faults_undisturbed .., triggers_undisturbed ..⟩
  · obtain ⟨-, hooks, same⟩ := operate_upkeep_quiet quiet (not_exists.mp call)
    rw [same]
    exact ⟨rfl, rfl⟩

/-- Deeds that plant no fault on parents leave a world in which there is none. -/
theorem candid_enact (candid : world.Candid) {deed : Deed ι} (spares : deed.Candid) :
    (enact world deed).2.Candid := by
  cases deed with
  | change change =>
    have healthy : ∀ kind, (∀ fault, change = .fault kind fault → False) →
        world.platform.faults kind = none → (world.platform.apply change).faults kind = none := by
      intro kind spared healthy
      cases change with
      | fault on fault =>
        have other : kind ≠ on := by
          rintro rfl
          exact spared fault rfl
        exact (if_neg other).trans healthy
      | heal on => exact ite_eq_left_iff.mpr fun _ => healthy
      | _ => exact healthy
    -- A change plants no steps, and an operation only takes some away.
    have quiet : (world.platform.apply change).triggers = [] := by
      rw [← candid.quiet]
      cases change <;> rfl
    refine ⟨quiet, candid.idle, healthy .parent ?_ candid.parent,
      healthy .setParent ?_ candid.setParent⟩
    · rintro fault rfl
      exact spares.1 rfl
    · rintro fault rfl
      exact spares.2 rfl
  | operation operation =>
    obtain ⟨faults, triggers⟩ := operate_leaves candid.quiet operation
    have arises := platform.arises_operate (operate_eq_iff.mp (Eq.refl (operate operation world)))
    exact ⟨triggers.trans candid.quiet, arises.idle candid.idle,
      (congrFun faults _).trans candid.parent, (congrFun faults _).trans candid.setParent⟩

/-- A deed tells the truth about parents. -/
theorem parentOf_enact (candid : world.Candid) (deed : Deed ι)
    (returns : ∀ h ∈ (enact world deed).1.handlings, h.ending.unwinds = false) (win : Handle) :
    (enact world deed).2.platform.parentOf win =
      (enact world deed).1.told win (world.platform.parentOf win) := by
  cases deed with
  | change change => exact parentOf_apply world.platform change win
  | operation operation =>
    by_cases call : ∃ call : Callback ι, call.operation = operation
    · obtain ⟨call, rfl⟩ := call
      obtain ⟨visit, operated, handlings⟩ := operate_call_quiet candid.quiet call
      rw [enact, operated] at returns ⊢
      have returns : ∀ h ∈ visit.handlings, h.ending.unwinds = false := returns
      rw [handlings, List.forall_mem_singleton] at returns
      show _ = visit.handlings.foldl (Handling.told world.hosts win) _
      rw [handlings]
      exact World.parentOf_handled candid.setParent returns win
    · obtain ⟨silent, hooks, same⟩ := operate_upkeep_quiet candid.quiet (not_exists.mp call)
      show (operate operation world).2.platform.parentOf win =
        (operate operation world).1.handlings.foldl (Handling.told world.hosts win) _
      rw [silent, same]
      rfl

/-- Deeds that plant no fault on parents leave a world in which there is none, and tell the truth
about parents if all handlings return. -/
theorem candid_enactAll {deeds : List (Deed ι)} (candid : world.Candid)
    (spares : ∀ deed ∈ deeds, deed.Candid) :
    (enactAll deeds world).2.Candid ∧
      ((∀ happening ∈ (enactAll deeds world).1, ∀ h ∈ happening.handlings,
          h.ending.unwinds = false) →
        ∀ win, (enactAll deeds world).2.platform.parentOf win =
          toldParent win (world.platform.parentOf win) (enactAll deeds world).1) := by
  induction deeds generalizing world with
  | nil => exact ⟨candid, fun _ win => rfl⟩
  | cons deed rest ih =>
    obtain ⟨spares, later⟩ := List.forall_mem_cons.mp spares
    obtain ⟨left, truth⟩ := ih (candid_enact candid spares) later
    refine ⟨left, fun returns win => ?_⟩
    obtain ⟨returns, later⟩ := List.forall_mem_cons.mp returns
    have now := parentOf_enact candid deed returns win
    show (enactAll rest (enact world deed).2).2.platform.parentOf win =
      toldParent win ((enact world deed).1.told win _) (enactAll rest (enact world deed).2).1
    rw [truth later, now]

/-- The outcomes tell the truth about the desktop. Operations of any embedders and changes of the
desktop follow each other from a world in which no steps wait, no embedder deals with an activation,
and parents are read and changed without fail, and none of them plants a fault on that. If all
handlings return, then each window has the parent with which it was created, or the host, at the
time, of the embedder that has embedded it last. In the world that is reached the activation of a
window of the configured class is handled by an installed embedder in this way, as long as nothing
unwinds meanwhile: the window is found embedded if that parent is the embedder's own host, and is
embedded otherwise. -/
theorem parents_told {deeds : List (Deed ι)} {log : List (Happening ι)}
    {world' : World ι (Desktop ι)} (candid : world.Candid)
    (spares : ∀ deed ∈ deeds, deed.Candid) (enacted : enactAll deeds world = (log, world'))
    (returns : ∀ happening ∈ log, ∀ h ∈ happening.handlings, h.ending.unwinds = false) :
    (∀ win, world'.platform.parentOf win = toldParent win (world.platform.parentOf win) log) ∧
    ∀ (call : Callback ι) (win : Handle) (installation : Installation),
      (world'.embedders call.embedder).installation = some installation →
      call.event.activating? = some win →
      world'.platform.reply (.className win classNameCapacity) =
        .returned (.ok (world'.embedders call.embedder).options.plotClass) →
      ∃ acts ending,
        (operate call.operation world').1.handlings =
          [⟨call.embedder, call.event, acts, ending⟩] ∧
        ((∀ act ∈ acts, act.untroubled = true) →
          (toldParent win (world.platform.parentOf win) log = some (some installation.host) →
            ending = .returned .alreadyEmbedded) ∧
          (toldParent win (world.platform.parentOf win) log ≠ some (some installation.host) →
            ∃ size, ending = .returned (.embedded size))) := by
  obtain ⟨left, truth⟩ := candid_enactAll candid spares
  rw [enacted] at left truth
  have truth := truth returns
  refine ⟨truth, fun call win installation installed activated bears => ?_⟩
  obtain ⟨visit, operated, handlings⟩ := operate_call_quiet left.quiet call
  rw [operated, Record.handlings, ← truth win]
  exact ⟨_, _, handlings, World.ending_handle left.quiet left.parent installed (left.idle _)
    activated bears⟩

/-- Two embedders contest a plot. The first one embeds it, and then the second one is installed with
a host of its own and does the same. Meanwhile another plot is replaced by a child of the first
host. -/
def contest : List (Deed Nat) :=
  [.change (.window ⟨4⟩ { clientArea := some {} }),
    .operation (.process 0 (.activation ⟨2⟩)),
    .operation (.uninstall 1),
    .operation (.install 1 ⟨4⟩),
    .change (.window ⟨3⟩ { className := some (Text.encode defaultPlotClass), parent := some ⟨1⟩ }),
    .operation (.activating 1 (.activation ⟨2⟩))]

/-- In the end the contested plot is a child of the second host. The second embedder finds it there,
and the first one embeds it again. -/
theorem parents_told_of_contest : ∃ log world' size,
    enactAll contest (stilled pestered) = (log, world') ∧
    toldParent ⟨2⟩ (some none) log = some (some ⟨4⟩) ∧
    toldParent ⟨3⟩ (some none) log = some (some ⟨1⟩) ∧
    world'.platform.parentOf ⟨2⟩ = some (some ⟨4⟩) ∧
    world'.platform.parentOf ⟨3⟩ = some (some ⟨1⟩) ∧
    (operate (.activating 1 (.activation ⟨2⟩)) world').1.handlings.map Handling.ending =
      [.returned .alreadyEmbedded] ∧
    (operate (.process 0 (.activation ⟨2⟩)) world').1.handlings.map Handling.ending =
      [.returned (.embedded size)] := by
  have candid : (stilled pestered).Candid := ⟨rfl, fun _ => rfl, rfl, rfl⟩
  have spares : ∀ deed ∈ contest, deed.Candid := by simp [contest, Deed.Candid]
  have outcome :
      (∀ happening ∈ (enactAll contest (stilled pestered)).1, ∀ h ∈ happening.handlings,
        h.ending.unwinds = false) ∧
      toldParent ⟨2⟩ (some none) (enactAll contest (stilled pestered)).1 = some (some ⟨4⟩) ∧
      toldParent ⟨3⟩ (some none) (enactAll contest (stilled pestered)).1 = some (some ⟨1⟩) ∧
      (enactAll contest (stilled pestered)).2.platform.faults .className = none ∧
      ((enactAll contest (stilled pestered)).2.platform.className ⟨2⟩ classNameCapacity).toOption =
        some defaultPlotClass ∧
      (enactAll contest (stilled pestered)).2.embedders 0 =
        { installation := some ⟨⟨1⟩, ⟨0⟩⟩ } ∧
      (enactAll contest (stilled pestered)).2.embedders 1 =
        { installation := some ⟨⟨4⟩, ⟨1⟩⟩ } ∧
      (∀ h ∈ (operate (.activating 1 (.activation ⟨2⟩))
        (enactAll contest (stilled pestered)).2).1.handlings,
        ∀ act ∈ h.acts, act.untroubled = true) ∧
      (∀ h ∈ (operate (.process 0 (.activation ⟨2⟩))
        (enactAll contest (stilled pestered)).2).1.handlings,
        ∀ act ∈ h.acts, act.untroubled = true) := by
    decide +kernel
  generalize enacted : enactAll contest (stilled pestered) = run at outcome
  obtain ⟨log, world'⟩ := run
  obtain ⟨returns, second, first, healthy, className, installed, installed', untroubled,
    untroubled'⟩ := outcome
  have bears : world'.platform.reply (.className ⟨2⟩ classNameCapacity) =
      .returned (.ok defaultPlotClass) :=
    (reply_of_healthy healthy).trans
      (congrArg Ending.returned (Except.eq_ok_of_toOption className))
  -- From here on nothing is computed: the general statement tells the parents and both outcomes.
  obtain ⟨truth, calls⟩ := parents_told candid spares enacted returns
  have start : (stilled pestered).platform.parentOf ⟨2⟩ = some none := rfl
  have activated : (Event.activation ⟨2⟩).activating? = some ⟨2⟩ := rfl
  obtain ⟨acts, ending, found, ends⟩ := calls (.activating 1 (.activation ⟨2⟩)) ⟨2⟩ ⟨⟨4⟩, ⟨1⟩⟩
    (by rw [Callback.embedder, installed']) activated
    (by rw [Callback.embedder, installed', bears])
  obtain ⟨acts', ending', again, ends'⟩ := calls (.process 0 (.activation ⟨2⟩)) ⟨2⟩ ⟨⟨1⟩, ⟨0⟩⟩
    (by rw [Callback.embedder, installed]) activated
    (by rw [Callback.embedder, installed, bears])
  have found : (operate (.activating 1 (.activation ⟨2⟩)) world').1.handlings =
    [⟨1, .activation ⟨2⟩, acts, ending⟩] := found
  have again : (operate (.process 0 (.activation ⟨2⟩)) world').1.handlings =
    [⟨0, .activation ⟨2⟩, acts', ending'⟩] := again
  rw [found, List.forall_mem_singleton] at untroubled
  rw [again, List.forall_mem_singleton] at untroubled'
  rw [start, second] at ends ends'
  obtain ⟨size, embedded⟩ := (ends' untroubled').2 (by decide)
  refine ⟨log, world', size, rfl, second, first, (truth ⟨2⟩).trans second, (truth ⟨3⟩).trans first,
    ?_, ?_⟩
  · rw [found, List.map_singleton, (ends untroubled).1 rfl]
  · rw [again, List.map_singleton, embedded]

end Desktop

end PlotEmbedding
