import PlotEmbedding.Operation

/-!
# The simulated desktop

A platform whose state is written down in full: windows with a class, a parent and a client area; a
fault planted on any kind of request; lists of steps that run while a request is pending; the
result of the hook chain; and the number of hooks that were installed.

A request is dealt with in this order. A planted fault comes first and ends it. Then the request
takes effect and its answer is fixed; an answer that reports a failure ends it. Then the first list
of steps waiting for this kind of request runs, and a panic in it ends the request as well. The
check for a window and the installing and removing of hooks run no steps.
-/

namespace PlotEmbedding

/-- A window of the desktop. -/
structure Window where
  /-- The UTF-16 units of the class name. -/
  className : Option (List UInt16) := none
  parent : Option Handle := none
  clientArea : Option Area := none
  deriving DecidableEq, Repr

/-- What happens to each request of a kind while the fault is planted. -/
inductive Fault where
  /-- The request fails. -/
  | failure (failure : Failure)
  /-- The request panics. -/
  | panic (text : String)
  deriving DecidableEq, Repr

/-- A change of the desktop from outside. -/
inductive Change where
  /-- Creates a window, or replaces it whole. -/
  | window (win : Handle) (window : Window)
  /-- Removes a window. -/
  | destroy (win : Handle)
  /-- Plants a fault in the place of an earlier one. -/
  | fault (on : RequestKind) (fault : Fault)
  /-- Removes a fault. -/
  | heal (on : RequestKind)
  /-- Sets the result of the hook chain. -/
  | chain (result : Int64)
  deriving DecidableEq, Repr

/-- One step of what a desktop does while a request is pending. -/
inductive Step (ι : Type) where
  /-- An embedder handles an event. -/
  | process (e : ι) (event : Event)
  /-- An embedder handles an event and hands it on. -/
  | activating (e : ι) (event : Event)
  /-- The state of an embedder is read. -/
  | look (e : ι)
  /-- The parent of a window is read. -/
  | parentOf (win : Handle)
  /-- The desktop changes. -/
  | change (change : Change)
  /-- More steps are put at the end of those that wait for a kind of request. -/
  | trigger (on : RequestKind) (steps : List (Step ι))
  deriving Repr

/-- The state of the desktop. -/
structure Desktop (ι : Type) where
  windows : Handle → Option Window := fun _ => none
  faults : RequestKind → Option Fault := fun _ => none
  /-- The lists of steps that wait for a request, in order of planting. -/
  triggers : List (RequestKind × List (Step ι)) := []
  chain : Int64 := 77
  hooks : UInt32 := 0

/-- What the desktop notes about its own steps. -/
inductive Note where
  /-- The desktop changed. -/
  | changed (change : Change)
  /-- Steps were put to wait for a kind of request. -/
  | planted (on : RequestKind)
  /-- The parent that was read, if there was such a window. -/
  | parentOf (win : Handle) (parent : Option (Option Handle))
  deriving DecidableEq, Repr

/-- The kinds of request during which waiting steps run. -/
def RequestKind.runsTriggers : RequestKind → Bool
  | isWindow | installHook | removeHook => false
  | _ => true

namespace Desktop

variable {ι α : Type}

/-- Replaces what the desktop knows of one window. -/
def setWindow (d : Desktop ι) (win : Handle) (window : Option Window) : Desktop ι :=
  { d with windows := fun other => if other = win then window else d.windows other }

/-- Replaces the fault of one kind of request. -/
def setFault (d : Desktop ι) (on : RequestKind) (fault : Option Fault) : Desktop ι :=
  { d with faults := fun other => if other = on then fault else d.faults other }

/-- The desktop once it has changed. -/
def apply (d : Desktop ι) : Change → Desktop ι
  | .window win window => d.setWindow win (some window)
  | .destroy win => d.setWindow win none
  | .fault on fault => d.setFault on (some fault)
  | .heal on => d.setFault on none
  | .chain result => { d with chain := result }

/-- Puts steps at the end of those that wait for a kind of request. -/
def plant (d : Desktop ι) (on : RequestKind) (steps : List (Step ι)) : Desktop ι :=
  { d with triggers := d.triggers ++ [(on, steps)] }

/-- The parent of a window: no parent for a window without one, and nothing if there is no window.
-/
def parentOf (d : Desktop ι) (win : Handle) : Option (Option Handle) :=
  (d.windows win).map Window.parent

/-- The class of a window, cut to a number of UTF-16 units and then decoded. -/
def className (d : Desktop ι) (win : Handle) (capacity : Nat) : Except Failure String :=
  match (d.windows win).bind Window.className with
  | some units => decodeUnits (units.take capacity)
  | none => .error (.embedding (.windowQuery RequestKind.className.name))

/-- The client area of a window. -/
def clientArea (d : Desktop ι) (win : Handle) : Except Failure Area :=
  match (d.windows win).bind Window.clientArea with
  | some area => .ok area
  | none => .error (.embedding (.windowQuery RequestKind.clientArea.name))

/-- Makes a window a child of another, if it exists. -/
def reparent (d : Desktop ι) (win parent : Handle) : Desktop ι :=
  match d.windows win with
  | some window => d.setWindow win (some { window with parent := some parent })
  | none => d

/-- The answer to a request that no fault ends, and the desktop once it has taken effect. -/
def answer (d : Desktop ι) : (request : Request) → request.Answer × Desktop ι
  | .isWindow win => ((d.windows win).isSome, d)
  | .className win capacity => (d.className win capacity, d)
  | .parent win => (.ok (d.parentOf win).join, d)
  | .clientArea win => (d.clientArea win, d)
  | .mutate (.setParent win parent) => (.ok (), d.reparent win parent)
  | .mutate _ => (.ok (), d)
  | .installHook => (.ok ⟨(d.hooks + 1).toNat⟩, { d with hooks := d.hooks + 1 })
  | .removeHook _ => (.ok (), d)
  | .forward _ _ => (d.chain, d)

/-- Takes the first list of steps that waits for a kind of request out of the list of all. -/
def takeFirst (on : RequestKind) :
    List (RequestKind × List (Step ι)) → Option (List (Step ι) × List (RequestKind × List (Step ι)))
  | [] => none
  | (kind, steps) :: rest =>
    if kind = on then some (steps, rest)
    else (takeFirst on rest).map fun (found, rest) => (found, (kind, steps) :: rest)

/-- Takes the first list of steps that waits for a kind of request. -/
def pop (d : Desktop ι) (on : RequestKind) : Option (List (Step ι) × Desktop ι) :=
  (takeFirst on d.triggers).map fun (steps, triggers) => (steps, { d with triggers })

/-- Goes on once a callback has returned, and unwinds with one that unwound. -/
def unlessUnwound (next : Desktop ι → Reaction ι Note (Desktop ι) α) :
    Ending Reply → Desktop ι → Reaction ι Note (Desktop ι) α
  | .returned _, d => next d
  | .unwound panic, d => .finish (.unwound panic) d

/-- Runs steps while a request is pending, and then gives the answer that was fixed before. -/
def play (answer : α) : List (Step ι) → Desktop ι → Reaction ι Note (Desktop ι) α
  | [], d => .finish (.returned answer) d
  | .process e event :: rest, d =>
    .callback (.process e event) d (unlessUnwound (play answer rest))
  | .activating e event :: rest, d =>
    .callback (.activating e event) d (unlessUnwound (play answer rest))
  | .look e :: rest, d => .look e (play answer rest d)
  | .parentOf win :: rest, d => .note (.parentOf win (d.parentOf win)) (play answer rest d)
  | .change change :: rest, d => .note (.changed change) (play answer rest (d.apply change))
  | .trigger on steps :: rest, d => .note (.planted on) (play answer rest (d.plant on steps))

/-- What the desktop does with a request that no fault ends. -/
def perform (request : Request) (d : Desktop ι) :
    Reaction ι Note (Desktop ι) request.Answer :=
  let (answer, d) := d.answer request
  if (request.failure? answer).isSome || !request.kind.runsTriggers then
    .finish (.returned answer) d
  else
    match d.pop request.kind with
    | some (steps, d) => play answer steps d
    | none => .finish (.returned answer) d

/-- What the desktop does with a request. One that cannot be refused ignores a planted failure. -/
def react (request : Request) (d : Desktop ι) : Reaction ι Note (Desktop ι) request.Answer :=
  match d.faults request.kind with
  | some (.panic text) => .finish (.unwound text) d
  | some (.failure failure) =>
    match request.refusal? failure with
    | some answer => .finish (.returned answer) d
    | none => perform request d
  | none => perform request d

/-- The desktop as a platform. -/
def platform : Platform ι Note (Desktop ι) := ⟨react⟩

end Desktop

end PlotEmbedding
