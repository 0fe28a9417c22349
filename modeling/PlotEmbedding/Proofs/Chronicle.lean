import PlotEmbedding.Proofs.History

/-!
# Chronicles

A call tree says what happened inside of what. Its chronicle, `Record.moments`, says what happened
before what: it is the list of the moments at which an embedder begins and ceases to handle an
event, makes a request and hears how the request ended, and at which the platform looks at an
embedder.

`Covers` is the way to a property of every moment that depends on the states of the embedders only:
it is checked for each thing that an embedder does, and `Visit.Arise.forall_moment` and
`Act.Arise.forall_moment` carry it through the call tree.

`Standing` is what a chronicle up to some moment leaves open: the invocations that have begun and
not ended, innermost first. Each has the number of those that began before it, and remembers the
requests that it has made itself and the one that is pending. `Standing.throughout_iff` is the way
in and out of proofs about chronicles: a property of every moment, given what is open at that
moment, is checked along the list.
-/

namespace PlotEmbedding

variable {ι ν : Type}

/-- The part of its work in which an embedder makes a request. -/
inductive Part where
  /-- It handles an event. -/
  | handling
  /-- It hands an event on after handling it. -/
  | handingOn
  /-- It is installed or uninstalled. -/
  | upkeep
  deriving DecidableEq, Repr

/-- A moment of a run. -/
inductive Moment (ι : Type) where
  /-- The embedder begins to handle an event. -/
  | begins (e : ι) (event : Event)
  /-- The embedder makes a request. -/
  | asks (e : ι) (part : Part) (request : Request)
  /-- The embedder hears how its request ended. -/
  | hears (e : ι) (part : Part) (request : Request) (ending : Ending request.Answer)
  /-- The platform looks at the embedder. -/
  | looks (e : ι) (embedder : Embedder)
  /-- The embedder ceases to handle an event, by returning or by unwinding. -/
  | ends (e : ι) (ending : Ending ActivationOutcome)

mutual

/-- The moments of one act of an embedder. -/
def Act.moments (e : ι) (part : Part) : Act ι ν → List (Moment ι)
  | .report _ => []
  | .call request visits ending =>
    .asks e part request :: (Visit.chronicle visits ++ [.hears e part request ending])

/-- The moments of the acts of an embedder. -/
def Act.chronicle (e : ι) (part : Part) : List (Act ι ν) → List (Moment ι)
  | [] => []
  | act :: rest => act.moments e part ++ Act.chronicle e part rest

/-- The moments of one visit. -/
def Visit.moments : Visit ι ν → List (Moment ι)
  | .process e event acts ending =>
    .begins e event :: (Act.chronicle e .handling acts ++ [.ends e ending])
  | .activating e event handling outcome handingOn _ =>
    .begins e event :: (Act.chronicle e .handling handling ++
      .ends e outcome :: Act.chronicle e .handingOn handingOn)
  | .look e embedder => [.looks e embedder]
  | .note _ => []

/-- The moments of visits. -/
def Visit.chronicle : List (Visit ι ν) → List (Moment ι)
  | [] => []
  | visit :: rest => visit.moments ++ Visit.chronicle rest

end

/-- The moments of one visit alone. -/
@[simp] theorem Visit.chronicle_singleton (visit : Visit ι ν) :
    Visit.chronicle [visit] = visit.moments := by
  rw [chronicle, chronicle, List.append_nil]

namespace Record

/-- The moments of an operation. -/
def moments : Record ι ν → List (Moment ι)
  | create e _ acts _ => Act.chronicle e .upkeep acts
  | install e _ acts _ => Act.chronicle e .upkeep acts
  | uninstall e acts _ => Act.chronicle e .upkeep acts
  | drop e acts _ => Act.chronicle e .upkeep acts
  | visit v => v.moments

/-- The moments of operations in a row. -/
def chronicle (records : List (Record ι ν)) : List (Moment ι) := records.flatMap moments

/-- Operations in a row have their moments in a row. -/
@[simp] theorem chronicle_append (first later : List (Record ι ν)) :
    chronicle (first ++ later) = chronicle first ++ chronicle later :=
  List.flatMap_append

/-- The moments of one operation alone. -/
@[simp] theorem chronicle_singleton (record : Record ι ν) : chronicle [record] = record.moments :=
  List.flatMap_singleton ..

end Record

/-! ## The requests of calls -/

/-- An embedder may make the request in that part of dealing with an event. -/
def Part.Suits : Part → Request → Prop
  | handling, request => request.OnWindow
  | handingOn, request => request.IsForward
  | upkeep, _ => False

/-- The moment may be one of a call: its request, if it has one, suits the part of the work. -/
def Moment.OfCall : Moment ι → Prop
  | asks _ part request => part.Suits request
  | hears _ part request _ => part.Suits request
  | begins _ _ => True
  | looks _ _ => True
  | ends _ _ => True

/-- Every moment of a call and of what follows. -/
theorem Act.forall_chronicle_call {P : Moment ι → Prop} {e : ι} {part : Part} {request : Request}
    {visits : List (Visit ι ν)} {ending : Ending request.Answer} {rest : List (Act ι ν)} :
    (∀ moment ∈ Act.chronicle e part (.call request visits ending :: rest), P moment) ↔
      P (.asks e part request) ∧ (∀ moment ∈ Visit.chronicle visits, P moment) ∧
        P (.hears e part request ending) ∧ ∀ moment ∈ Act.chronicle e part rest, P moment := by
  rw [Act.chronicle, Act.moments, List.cons_append, List.append_assoc, List.forall_mem_cons,
    List.forall_mem_append, List.forall_mem_append, List.forall_mem_singleton]

/-- Every moment of the handling of an event and of what follows. -/
theorem Visit.forall_chronicle_process {P : Moment ι → Prop} {e : ι} {event : Event}
    {acts : List (Act ι ν)} {ending : Ending ActivationOutcome} {rest : List (Visit ι ν)} :
    (∀ moment ∈ Visit.chronicle (.process e event acts ending :: rest), P moment) ↔
      P (.begins e event) ∧ (∀ moment ∈ Act.chronicle e .handling acts, P moment) ∧
        P (.ends e ending) ∧ ∀ moment ∈ Visit.chronicle rest, P moment := by
  rw [Visit.chronicle, Visit.moments, List.cons_append, List.append_assoc, List.forall_mem_cons,
    List.forall_mem_append, List.forall_mem_append, List.forall_mem_singleton]

/-- Every moment of the handling of an event, of its handing on, and of what follows. -/
theorem Visit.forall_chronicle_activating {P : Moment ι → Prop} {e : ι} {event : Event}
    {handling handingOn : List (Act ι ν)} {outcome : Ending ActivationOutcome}
    {ending : Ending Int64} {rest : List (Visit ι ν)} :
    (∀ moment ∈ Visit.chronicle (.activating e event handling outcome handingOn ending :: rest),
        P moment) ↔
      P (.begins e event) ∧ (∀ moment ∈ Act.chronicle e .handling handling, P moment) ∧
        P (.ends e outcome) ∧ (∀ moment ∈ Act.chronicle e .handingOn handingOn, P moment) ∧
        ∀ moment ∈ Visit.chronicle rest, P moment := by
  rw [Visit.chronicle, Visit.moments, List.cons_append, List.append_assoc, List.cons_append,
    List.forall_mem_cons, List.forall_mem_append, List.forall_mem_cons, List.forall_mem_append]

/-- The property of moments holds of all that an embedder does in dealing with an event, as long as
the embedders are in states with the invariant, which does not mind that one of them responds. -/
structure Covers [DecidableEq ι] (ν : Type) (I : Roster ι → Prop) (P : Moment ι → Prop) : Prop where
  /-- The invariant stays when an embedder begins to respond. -/
  busy : ∀ {roster : Roster ι} (e : ι), I roster → I (roster.busy e)
  /-- The property holds where an embedder begins to handle an event. -/
  begins : ∀ {roster : Roster ι} (e : ι) (event : Event), I roster → P (.begins e event)
  /-- The property holds where the platform looks at an embedder. -/
  looks : ∀ {roster : Roster ι} (e : ι), I roster → P (.looks e (roster e))
  /-- The property holds of the requests in handling an event, and where that ends. -/
  handles : ∀ {roster : Roster ι} {e : ι} {event : Event} {acts : List (Act ι ν)}
    {ending : Ending ActivationOutcome}, I roster → (roster e).Handles event acts ending →
    (∀ r ∈ Act.requests acts, P (.asks e .handling r) ∧ ∀ ended, P (.hears e .handling r ended)) ∧
      P (.ends e ending)
  /-- The property holds of the requests in handing an event on. -/
  handsOn : ∀ {roster : Roster ι} {e : ι} {event : Event} {outcome : Ending ActivationOutcome}
    {acts : List (Act ι ν)} {ending : Ending Int64}, I roster →
    (roster e).HandsOn event outcome acts ending →
    ∀ r ∈ Act.requests acts, P (.asks e .handingOn r) ∧ ∀ ended, P (.hears e .handingOn r ended)

mutual

/-- What is covered holds throughout the acts of an embedder if it holds of the embedder's own
requests. -/
theorem Act.Arise.forall_moment [DecidableEq ι] {I : Roster ι → Prop} {P : Moment ι → Prop}
    {roster : Roster ι} {acts : List (Act ι ν)} {e : ι} {part : Part} (h : Act.Arise roster acts)
    (covers : Covers ν I P) (inv : I roster)
    (own : ∀ r ∈ Act.requests acts, P (.asks e part r) ∧ ∀ ended, P (.hears e part r ended)) :
    ∀ moment ∈ Act.chronicle e part acts, P moment :=
  match h with
  | .nil _ => List.forall_mem_nil _
  | .report rest => rest.forall_moment covers inv own
  | .call visited rest =>
    have ⟨⟨asks, hears⟩, own⟩ := List.forall_mem_cons.mp own
    Act.forall_chronicle_call.mpr
      ⟨asks, visited.forall_moment covers inv, hears _, rest.forall_moment covers inv own⟩

/-- What is covered holds throughout visits. -/
theorem Visit.Arise.forall_moment [DecidableEq ι] {I : Roster ι → Prop} {P : Moment ι → Prop}
    {roster : Roster ι} {visits : List (Visit ι ν)} (h : Visit.Arise roster visits)
    (covers : Covers ν I P) (inv : I roster) : ∀ moment ∈ Visit.chronicle visits, P moment :=
  match h with
  | .nil _ => List.forall_mem_nil _
  | .process handles arise rest =>
    have ⟨own, ends⟩ := covers.handles inv handles
    Visit.forall_chronicle_process.mpr ⟨covers.begins _ _ inv,
      arise.forall_moment covers (covers.busy _ inv) own, ends, rest.forall_moment covers inv⟩
  | .activating handles arise handsOn arise' rest =>
    have ⟨own, ends⟩ := covers.handles inv handles
    Visit.forall_chronicle_activating.mpr ⟨covers.begins _ _ inv,
      arise.forall_moment covers (covers.busy _ inv) own, ends,
      arise'.forall_moment covers inv (covers.handsOn inv handsOn), rest.forall_moment covers inv⟩
  | .look rest => List.forall_mem_cons.mpr ⟨covers.looks _ inv, rest.forall_moment covers inv⟩
  | .note rest => rest.forall_moment covers inv

end

/-- Embedders make requests about windows in handling events, and hand them on, in any states. -/
theorem covers_ofCall [DecidableEq ι] : Covers ν (fun _ : Roster ι => True) Moment.OfCall where
  busy _ _ := trivial
  begins _ _ _ := trivial
  looks _ _ := trivial
  handles _ handles :=
    ⟨fun r hr => ⟨handles.requests r hr, fun _ => handles.requests r hr⟩, trivial⟩
  handsOn _ handsOn r hr := ⟨handsOn.requests r hr, fun _ => handsOn.requests r hr⟩

/-- Visits make requests about windows and hand events on, and nothing else. -/
theorem Visit.Arise.ofCall [DecidableEq ι] {roster : Roster ι} {visits : List (Visit ι ν)}
    (h : Visit.Arise roster visits) : ∀ moment ∈ Visit.chronicle visits, moment.OfCall :=
  h.forall_moment covers_ofCall trivial

/-! ## What is open at a moment -/

/-- An invocation that handles an event. -/
structure Invocation (ι : Type) where
  /-- How many invocations began before this one. -/
  number : Nat
  embedder : ι
  event : Event
  /-- The requests that the invocation has made itself. -/
  asked : List Request := []
  /-- The request that the invocation waits for. -/
  pending : Option Request := none

/-- The invocation makes a request. -/
def Invocation.asks (i : Invocation ι) (request : Request) : Invocation ι :=
  { i with asked := i.asked ++ [request], pending := some request }

/-- The request of the invocation is no longer pending. -/
def Invocation.hears (i : Invocation ι) : Invocation ι := { i with pending := none }

/-- What a chronicle leaves open. -/
structure Standing (ι : Type) where
  /-- The invocations that have begun and not ended, innermost first. -/
  running : List (Invocation ι) := []
  /-- How many invocations have begun. -/
  begun : Nat := 0

/-- Changes the innermost invocation if the part of the work is its handling of an event. -/
def Part.innermost (f : Invocation ι → Invocation ι) (running : List (Invocation ι)) :
    Part → List (Invocation ι)
  | handling => running.modifyHead f
  | handingOn => running
  | upkeep => running

namespace Standing

/-- What is open once a moment has passed. -/
def after (s : Standing ι) : Moment ι → Standing ι
  | .begins e event => ⟨⟨s.begun, e, event, [], none⟩ :: s.running, s.begun + 1⟩
  | .asks _ part request => { s with running := part.innermost (·.asks request) s.running }
  | .hears _ part _ _ => { s with running := part.innermost Invocation.hears s.running }
  | .looks _ _ => s
  | .ends _ _ => { s with running := s.running.tail }

/-- What is open once moments have passed. -/
def afterAll (s : Standing ι) (moments : List (Moment ι)) : Standing ι := moments.foldl after s

@[simp] theorem afterAll_cons (s : Standing ι) (moment : Moment ι) (rest : List (Moment ι)) :
    s.afterAll (moment :: rest) = (s.after moment).afterAll rest := rfl

/-- Moments may be passed in two parts. -/
@[simp] theorem afterAll_append (s : Standing ι) (first later : List (Moment ι)) :
    s.afterAll (first ++ later) = (s.afterAll first).afterAll later :=
  List.foldl_append

variable {P : Standing ι → Moment ι → Prop}

/-- `P` holds of every moment, given what is open at that moment. -/
def Throughout (P : Standing ι → Moment ι → Prop) : Standing ι → List (Moment ι) → Prop
  | _, [] => True
  | s, moment :: rest => P s moment ∧ Throughout P (s.after moment) rest

/-- What holds throughout moments in a row holds throughout each part. -/
theorem throughout_append {s : Standing ι} {first later : List (Moment ι)} :
    Throughout P s (first ++ later) ↔
      Throughout P s first ∧ Throughout P (s.afterAll first) later := by
  induction first generalizing s with
  | nil => exact (iff_of_eq (true_and _)).symm
  | cons moment rest ih => rw [List.cons_append, Throughout, Throughout, ih, and_assoc]; rfl

/-- What holds throughout holds wherever the moments are cut in two. -/
theorem throughout_iff {s : Standing ι} {moments : List (Moment ι)} :
    Throughout P s moments ↔
      ∀ before moment later, moments = before ++ moment :: later →
        P (s.afterAll before) moment := by
  constructor
  · rintro h before moment later rfl
    exact (throughout_append.mp h).2.1
  · intro h
    induction moments generalizing s with
    | nil => trivial
    | cons moment rest ih =>
      -- A cut behind the first moment is one of the rest, seen from what that moment leaves open.
      refine ⟨h [] moment rest rfl, ih fun before later_moment later heq => ?_⟩
      exact h (moment :: before) later_moment later (by rw [heq]; rfl)

end Standing

end PlotEmbedding
