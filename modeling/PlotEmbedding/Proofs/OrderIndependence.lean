import PlotEmbedding.Proofs.Interruption
import PlotEmbedding.Proofs.Undisturbed

/-!
# The order of events

Events for one window influence each other: the first one embeds it, and then it is a child of the
host, or a panic leaves it halfway. Events for different windows do not, even if one of them is the
host, since the handling of an event reads and changes the parent of its own window only. This is
`Embedder.handle_concerns`, and `Desktop.reply_effect` and `Desktop.effect_comm` say of two requests
what `Program.undisturbed_comm` says of whole programs: they do the same in either order.

So two neighbours in a list of events can be exchanged. If they are for the same window then the
embedder does the same in the first place, whichever of them comes first, and the same in the
second. `Desktop.processAll_perm` has all permutations of a list by induction from there.
-/

namespace PlotEmbedding

variable {ι α β : Type}

/-! ## Requests about different windows -/

/-- A request in the course of handling an activation of the target. It may read the client area of
any window, but it reads or changes the parent of the target only. -/
def Request.Concerns (target : Option Handle) : Request → Prop
  | className win _ => target = some win
  | parent win => target = some win
  | clientArea _ => True
  | mutate (.setParent win _) => target = some win
  | mutate _ => True
  | isWindow _ => False
  | installHook => False
  | removeHook _ => False
  | forward _ _ => False

namespace Desktop

variable {target target' : Option Handle} {r r' : Request}

/-- It does not matter which of two windows is made a child first. -/
theorem reparent_comm {a b : Handle} (other : a ≠ b) (d : Desktop ι) (host host' : Handle) :
    (d.reparent a host).reparent b host' = (d.reparent b host').reparent a host := by
  cases ha : d.windows a <;> cases hb : d.windows b <;>
    simp [reparent, setWindow, ha, hb, other, other.symm]
  funext win
  by_cases own : win = a
  · simp [own, other]
  · simp [own]

/-- No request changes anything about a window but its parent. -/
theorem read_effect {γ : Type} {read : Window → Option γ}
    (blind : ∀ window parent, read { window with parent } = read window) (d : Desktop ι)
    (r : Request) (win : Handle) :
    ((d.effect r).windows win).bind read = (d.windows win).bind read := by
  rcases d.effect_cases r with ⟨child, parent, -, -, same⟩ | ⟨-, same⟩
  · rw [same, windows_reparent]
    split
    · cases d.windows win with
      | none => rfl
      | some window => exact blind window (some parent)
    · rfl
  · rw [same]

/-- A request about one target does not depend on a request about another one. -/
theorem reply_effect (other : target ≠ target') (h : r.Concerns target) (h' : r'.Concerns target')
    (d : Desktop ι) : (d.effect r).reply r' = d.reply r' := by
  have answer : ((d.effect r).answer r').1 = (d.answer r').1 := by
    cases r' with
    | className win capacity =>
      show (d.effect r).className win capacity = d.className win capacity
      rw [className, read_effect (fun _ _ => rfl), className]
    | clientArea win =>
      show (d.effect r).clientArea win = d.clientArea win
      rw [clientArea, read_effect (fun _ _ => rfl), clientArea]
    -- Only the parent of a window is ever changed, and this window is none of the other target.
    | parent win =>
      have spared : win ∉ r.touched := by
        intro touched
        obtain ⟨host, rfl⟩ := Request.exists_of_touched touched
        exact other (h.trans h'.symm)
      show Except.ok ((d.effect r).parentOf win).join = .ok (d.parentOf win).join
      rw [parentOf, windows_effect spared, parentOf]
    | mutate mutation => cases mutation <;> rfl
    | _ => exact h'.elim
  rw [reply, reply, faults_effect, answer]

/-- A request about a target makes it a child, unless that meets a fault, or has no effect. -/
theorem effect_of_concerns (h : r.Concerns target) :
    (∃ win host, target = some win ∧ ∀ d : Desktop ι, d.effect r =
      if d.faults .setParent = none then d.reparent win host else d) ∨
    ∀ d : Desktop ι, d.effect r = d := by
  cases r with
  | mutate mutation =>
    cases mutation with
    | setParent win host => exact .inl ⟨win, host, h, fun _ => rfl⟩
    | _ => exact .inr fun d => ite_self d
  | className win capacity => exact .inr fun d => ite_self d
  | parent win => exact .inr fun d => ite_self d
  | clientArea win => exact .inr fun d => ite_self d
  | _ => exact h.elim

/-- Requests about different targets take effect in any order. -/
theorem effect_comm (other : target ≠ target') (h : r.Concerns target) (h' : r'.Concerns target')
    (d : Desktop ι) : (d.effect r).effect r' = (d.effect r').effect r := by
  have faults : (d.effect r).faults = (d.effect r').faults := by rw [faults_effect, faults_effect]
  rcases effect_of_concerns (ι := ι) h with ⟨a, host, rfl, first⟩ | idle
  · rcases effect_of_concerns (ι := ι) h' with ⟨b, host', rfl, later⟩ | idle
    · rw [later, first (d.effect r'), faults_effect, faults_effect, first, later]
      split
      · exact reparent_comm (fun same => other (congrArg some same)) d host host'
      · rfl
    · rw [idle, idle]
  · rw [idle, idle]

end Desktop

/-! ## Programs about different windows -/

namespace Program

variable {target target' : Option Handle}

/-- A request about one target has the same effect before a program about another one and after it.
-/
theorem undisturbed_effect {p : Program α} {r : Request} (other : target' ≠ target)
    (hp : p.Asks (·.Concerns target)) (hr : r.Concerns target') (d : Desktop ι) :
    p.undisturbed (d.effect r) =
      { p.undisturbed d with desktop := (p.undisturbed d).desktop.effect r } := by
  induction p generalizing d with
  | finish ending => rfl
  | report line rest ih => rw [undisturbed, ih hp, undisturbed, Solo.after, Solo.after]
  | request asked next ih =>
    rw [undisturbed, Desktop.reply_effect other hr hp.1, undisturbed]
    cases d.reply asked with
    | returned answer =>
      dsimp only
      rw [Desktop.effect_comm other hr hp.1, ih answer (hp.2 answer), Solo.after, Solo.after]
    -- The program is cut short, before the other request as well as after it.
    | unwound panic =>
      dsimp only
      rw [Desktop.effect_comm other hr hp.1]

/-- A program about one target finds the answers to a program about another one unchanged. -/
theorem reply_undisturbed {p : Program α} {r : Request} (other : target ≠ target')
    (hp : p.Asks (·.Concerns target)) (hr : r.Concerns target') (d : Desktop ι) :
    (p.undisturbed d).desktop.reply r = d.reply r := by
  rw [p.desktop_undisturbed d]
  exact List.foldlRecOn (motive := fun left : Desktop ι => left.reply r = d.reply r) _ _ rfl
    fun left same asked among => (Desktop.reply_effect other
      (hp.requests (p.undisturbed_allows d) asked among) hr left).trans same

/-- Programs about different targets run in any order: each does and returns the same before the
other and after it, and together they lead to the same desktop. -/
theorem undisturbed_comm {p : Program α} {q : Program β} (other : target ≠ target')
    (hp : p.Asks (·.Concerns target)) (hq : q.Asks (·.Concerns target')) (d : Desktop ι) :
    p.undisturbed (q.undisturbed d).desktop =
      { p.undisturbed d with desktop := (q.undisturbed (p.undisturbed d).desktop).desktop } := by
  induction q generalizing d with
  | finish ending => rfl
  | report line rest ih => exact ih hq d
  | request r next ih =>
    -- The next request of the second program is answered alike before the first and after it.
    rw [undisturbed, undisturbed, reply_undisturbed other hp hq.1]
    cases d.reply r with
    | returned answer =>
      dsimp only [Solo.after]
      rw [ih answer (hq.2 answer), undisturbed_effect other.symm hp hq.1]
    | unwound panic => exact undisturbed_effect other.symm hp hq.1 d

end Program

namespace Embedder

open Program

/-- Responding to the activation of a window concerns this window. -/
theorem respond_concerns (x : Embedder) (win : Handle) :
    (x.respond win).Asks (·.Concerns (some win)) := by
  have parts : x.Parts win fun _ p => p.Asks (·.Concerns (some win)) := by
    refine parts_asks rfl rfl (fun _ => trivial) fun host size change among => ?_
    -- Only the change of the parent concerns a window at all.
    simp only [changes, List.mem_cons, List.not_mem_nil, or_false] at among
    rcases among with rfl | rfl | rfl | rfl | rfl | rfl | rfl <;> trivial
  exact parts.respond

/-- Handling an event concerns the window whose activation it announces. -/
theorem handle_concerns (x : Embedder) (event : Event) :
    (x.handle event).Asks (·.Concerns event.activating?) := by
  unfold handle
  split
  · exact asks_pure _
  · next win activated =>
    split
    · exact asks_pure _
    · rw [activated]
      exact respond_concerns x win

/-- It only matters which activation an event announces. -/
theorem handle_congr (x : Embedder) {event event' : Event}
    (same : event.activating? = event'.activating?) : x.handle event = x.handle event' := by
  rw [handle, handle, same]

end Embedder

/-! ## Events in a row -/

/-- What was done and returned in the handlings of events about a target, in order. The target is
the window whose activation they announce. -/
def conductFor {ν : Type} (target : Option Handle) (records : List (Record ι ν)) :
    List (List (Act ι ν) × Ending ActivationOutcome) :=
  ((records.flatMap Record.handlings).filter (·.event.activating? = target)).map
    fun h => (h.acts, h.ending)

/-- What is done and returned for a target in one visit comes before what is done and returned for
it later. -/
theorem conductFor_cons {ν : Type} {visit : Visit ι ν} {h : Handling ι ν}
    (handlings : visit.handlings = [h]) (target : Option Handle) (records : List (Record ι ν)) :
    conductFor target (.visit visit :: records) =
      (if h.event.activating? = target then [(h.acts, h.ending)] else []) ++
        conductFor target records := by
  rw [conductFor, List.flatMap_cons, Record.handlings, handlings, List.filter_append,
    List.map_append, conductFor]
  split <;> simp [*]

namespace World

variable {e : ι} {world : World ι (Desktop ι)} {event event' : Event}

/-- What the embedder does and returns when it handles the event, if that is about the target. -/
def conductFor (world : World ι (Desktop ι)) (e : ι) (event : Event) (target : Option Handle) :
    List (List (Act ι Note) × Ending ActivationOutcome) :=
  if event.activating? = target then
    [((world.handle e event).trace, (world.handle e event).ending)]
  else []

/-- The handling of an event does the same and returns the same before the handling of one for a
different target and after it, and both together lead to the same desktop. -/
theorem handle_comm (other : event.activating? ≠ event'.activating?) :
    (world.handled e event').handle e event =
      { world.handle e event with desktop := ((world.handled e event).handle e event').desktop } :=
  Program.undisturbed_comm other (Embedder.handle_concerns _ event)
    (Embedder.handle_concerns _ event') world.platform

/-- Two events leave the same world behind in either order. -/
theorem handled_comm (event event' : Event) :
    (world.handled e event').handled e event = (world.handled e event).handled e event' := by
  by_cases same : event.activating? = event'.activating?
  · have twice : ∀ world : World ι (Desktop ι), world.handled e event = world.handled e event' :=
      fun world => by rw [handled, handle, Embedder.handle_congr _ same, handled, handle]
    rw [twice, twice]
  · rw [handled, handle_comm same]
    rfl

/-- What is done and returned for a target does not depend on whether an event for another one was
handled before. -/
theorem conductFor_handled (other : event.activating? ≠ event'.activating?)
    (target : Option Handle) :
    (world.handled e event').conductFor e event target = world.conductFor e event target := by
  rw [conductFor, handle_comm other, conductFor]

/-- For each target the same is done and returned in the handling of two events in either order. -/
theorem conductFor_comm (event event' : Event) (target : Option Handle) :
    world.conductFor e event' target ++ (world.handled e event').conductFor e event target =
      world.conductFor e event target ++ (world.handled e event).conductFor e event' target := by
  by_cases same : event.activating? = event'.activating?
  · -- Only the number of events for a target counts.
    have twice : ∀ world : World ι (Desktop ι), world.handle e event = world.handle e event' :=
      fun world => by rw [handle, Embedder.handle_congr _ same, handle]
    simp only [conductFor, handled, twice, same]
  · rw [conductFor_handled same, conductFor_handled (Ne.symm same)]
    -- The target is that of one of the events at most, and the other one adds nothing.
    by_cases first : event.activating? = target
    · have silent : world.conductFor e event' target = [] :=
        if_neg fun later => same (first.trans later.symm)
      rw [silent, List.nil_append, List.append_nil]
    · have silent : world.conductFor e event target = [] := if_neg first
      rw [silent, List.nil_append, List.append_nil]

end World

namespace Desktop

variable [DecidableEq ι]

/-- Performs operations on a desktop in a row. What is told is the record of each operation and the
world at the end. -/
def operateAll :
    List (Operation ι) → World ι (Desktop ι) → List (Record ι Note) × World ι (Desktop ι)
  | [], world => ([], world)
  | operation :: rest, world =>
    let (record, after) := operate operation world
    let (records, last) := operateAll rest after
    (record :: records, last)

/-- Lets an embedder handle events in a row. -/
def processAll (e : ι) (events : List Event) (world : World ι (Desktop ι)) :
    List (Record ι Note) × World ι (Desktop ι) :=
  operateAll (events.map (.process e)) world

variable {e : ι} {world : World ι (Desktop ι)}

/-- The first event is handled in the world as it is, and the others in the one that it leaves. -/
theorem processAll_cons (quiet : world.platform.triggers = []) (event : Event)
    (events : List Event) :
    (processAll e (event :: events) world).2 = (processAll e events (world.handled e event)).2 ∧
      ∀ target, conductFor target (processAll e (event :: events) world).1 =
        world.conductFor e event target ++
          conductFor target (processAll e events (world.handled e event)).1 := by
  obtain ⟨visit, operated, handlings⟩ := operate_call_quiet quiet (.process e event)
  have operated : operate (.process e event) world = (.visit visit, world.handled e event) :=
    operated
  rw [processAll, List.map_cons, operateAll, operated]
  exact ⟨rfl, fun target => conductFor_cons handlings target _⟩

/-- The order in which an embedder gets events makes no difference on a desktop on which no steps
wait, whatever faults there are: in the end the world is the same, and for each window the same was
done and returned. Events for the same window influence each other, but only by their number. -/
theorem processAll_perm {events events' : List Event} (quiet : world.platform.triggers = [])
    (perm : events.Perm events') :
    (processAll e events world).2 = (processAll e events' world).2 ∧
      ∀ target, conductFor target (processAll e events world).1 =
        conductFor target (processAll e events' world).1 := by
  -- No steps wait after an event either, so that every event is handled on its own.
  have quiet' : ∀ {world : World ι (Desktop ι)}, world.platform.triggers = [] →
      ∀ event, (world.handled e event).platform.triggers = [] :=
    fun quiet event => (triggers_undisturbed ..).trans quiet
  induction perm generalizing world with
  | nil => exact ⟨rfl, fun _ => rfl⟩
  | cons event _ ih =>
    obtain ⟨same, conduct⟩ := ih (quiet' quiet event)
    refine ⟨?_, fun target => ?_⟩
    · rw [(processAll_cons quiet event _).1, (processAll_cons quiet event _).1, same]
    · rw [(processAll_cons quiet event _).2, (processAll_cons quiet event _).2, conduct]
  | swap x y rest =>
    refine ⟨?_, fun target => ?_⟩
    · -- Two neighbours are exchanged, and the rest begins in the same world either way.
      rw [(processAll_cons quiet y _).1, (processAll_cons (quiet' quiet y) x _).1,
        (processAll_cons quiet x _).1, (processAll_cons (quiet' quiet x) y _).1,
        World.handled_comm x y]
    · rw [(processAll_cons quiet y _).2, (processAll_cons (quiet' quiet y) x _).2,
        (processAll_cons quiet x _).2, (processAll_cons (quiet' quiet x) y _).2,
        World.handled_comm x y, ← List.append_assoc, World.conductFor_comm x y,
        List.append_assoc]
  | trans _ _ ih ih' =>
    obtain ⟨same, conduct⟩ := ih quiet
    obtain ⟨same', conduct'⟩ := ih' quiet
    exact ⟨same.trans same', fun target => (conduct target).trans (conduct' target)⟩

/-- A plot whose placing panics is half embedded by the first of two events for it, and the second
finds it a child of the host. An event for another plot may come before them or in between. -/
theorem processAll_perm_of_fragile :
    (conductFor (some ⟨2⟩) (processAll 0 [.activation ⟨2⟩, .activation ⟨3⟩, .activation ⟨2⟩]
      (fragile .place)).1).map Prod.snd = [.unwound "lost", .returned .alreadyEmbedded] ∧
    (conductFor (some ⟨2⟩) (processAll 0 [.activation ⟨3⟩, .activation ⟨2⟩, .activation ⟨2⟩]
      (fragile .place)).1).map Prod.snd = [.unwound "lost", .returned .alreadyEmbedded] ∧
    (processAll 0 [.activation ⟨3⟩, .activation ⟨2⟩, .activation ⟨2⟩]
      (fragile .place)).2.platform.parentOf ⟨2⟩ = some (some ⟨1⟩) := by
  have quiet : (fragile .place).platform.triggers = [] := rfl
  have perm : [Event.activation ⟨2⟩, .activation ⟨3⟩, .activation ⟨2⟩].Perm
      [.activation ⟨3⟩, .activation ⟨2⟩, .activation ⟨2⟩] := .swap ..
  have ends : (conductFor (some ⟨2⟩) (processAll 0
        [.activation ⟨2⟩, .activation ⟨3⟩, .activation ⟨2⟩] (fragile .place)).1).map Prod.snd =
      [.unwound "lost", .returned .alreadyEmbedded] ∧
      (processAll 0 [.activation ⟨2⟩, .activation ⟨3⟩, .activation ⟨2⟩]
        (fragile .place)).2.platform.parentOf ⟨2⟩ = some (some ⟨1⟩) := by decide +kernel
  obtain ⟨same, conduct⟩ := processAll_perm (e := 0) quiet perm
  exact ⟨ends.1, conduct (some ⟨2⟩) ▸ ends.1, same ▸ ends.2⟩

end Desktop

end PlotEmbedding
