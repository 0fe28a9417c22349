import PlotEmbedding.Proofs.Admission

/-!
# Installing

An embedder installs with a host in at most two steps: the host is checked, and the hook is
registered. `Installing` says how what it does, and what comes of it, follows from the answers to
these two requests. The installation is the only thing that may change, and it changes at the very
end: whatever is refused or unwinds before leaves the embedder as it was.

The failure of a registration may be of any kind, those that embedders themselves have names for
included. A strict embedder returns its wording within an error of its own, and has no other errors
to return. `Platform.installs_or_leaves` says this of the operation as a whole.
-/

namespace PlotEmbedding

variable {ι ν σ : Type}

/-- How an installation of the embedder with a host, and the embedder that it leaves, follows from
what the platform answers. -/
structure Installing (x : Embedder) (host : Handle) (acts : List (Act ι ν))
    (ending : Ending (Except Failure InstallOutcome)) (after : Embedder) : Prop where
  /-- The host is checked first, if there is anything to check. -/
  asks : x.installation = none → host.isNull = false →
    ∃ visits told rest, acts = .call (.isWindow host) visits told :: rest
  /-- Nothing is asked for if the host is no window. -/
  noWindow : ∀ visits rest, acts = .call (.isWindow host) visits (.returned false) :: rest →
    Act.requests rest = [] ∧ ending = .returned (.ok .invalidHost)
  /-- If it is one the hook is registered, once. -/
  registers : ∀ visits rest, acts = .call (.isWindow host) visits (.returned true) :: rest →
    ∃ visits' told later, rest = .call .installHook visits' told :: later ∧
      Act.requests later = []
  /-- The embedder keeps the host and the hook. -/
  registered : ∀ visits visits' hook later,
    acts = .call (.isWindow host) visits (.returned true) ::
      .call .installHook visits' (.returned (.ok hook)) :: later →
    ending = .returned (.ok .installed) ∧
      after = { x with installation := some ⟨host, hook⟩ }
  /-- A failure is an error for a strict embedder, whatever its kind, and an outcome for any other.
  -/
  failed : ∀ visits visits' failure later,
    acts = .call (.isWindow host) visits (.returned true) ::
      .call .installHook visits' (.returned (.error failure)) :: later →
    ending = .returned (if x.options.strict then
      .error (.embedding (.hookRegistration failure.message)) else .ok .registrationFailed)
  /-- A request that unwinds is the last. -/
  unwound : ∀ before r visits panic later,
    acts = before ++ .call r visits (.unwound panic) :: later →
    later = [] ∧ ending = .unwound panic
  /-- There is no other error than that of a strict embedder. -/
  strict_of_error : ∀ failure, ending = .returned (.error failure) → x.options.strict = true ∧
    ∃ visits cause, .call .installHook visits (.returned (.error cause)) ∈ acts ∧
      failure = .embedding (.hookRegistration cause.message)
  /-- The embedder is what it was, unless it is installed now. -/
  unchanged : ending ≠ .returned (.ok .installed) → after = x

namespace Embedder

variable {x : Embedder} {host : Handle} {acts : List (Act ι ν)}
  {ending : Ending (Except Failure InstallOutcome × Embedder)}

/-- The embedder that an installation leaves, which is the same one if it unwound. -/
def left (x : Embedder) : Ending (Except Failure InstallOutcome × Embedder) → Embedder
  | .returned (_, after) => after
  | .unwound _ => x

/-- A new installation begins with the check of the host, unless that is the null handle. -/
theorem Installs.asks (h : x.Installs host acts ending) (vacant : x.installation = none)
    (given : host.isNull = false) :
    ∃ visits told rest, acts = .call (.isWindow host) visits told :: rest := by
  cases h with
  | already installed => cases vacant.symm.trans installed
  | null _ null => cases given.symm.trans null
  | _ => exact ⟨_, _, _, rfl⟩

/-- An error comes from a strict embedder whose registration failed. -/
theorem Installs.strict_of_error {failure : Failure} (h : x.Installs host acts ending)
    (error : ending.map Prod.fst = .returned (.error failure)) :
    x.options.strict = true ∧
      ∃ visits cause, .call .installHook visits (.returned (.error cause)) ∈ acts ∧
        failure = .embedding (.hookRegistration cause.message) := by
  cases h with
  | failed _ _ strict =>
    cases error
    exact ⟨strict, _, _, List.mem_cons_of_mem _ List.mem_cons_self, rfl⟩
  | _ => cases error

/-- Only an installation that comes about leaves a different embedder. -/
theorem Installs.left_eq (h : x.Installs host acts ending)
    (missed : ending.map Prod.fst ≠ .returned (.ok .installed)) : x.left ending = x := by
  cases h with
  | registered _ _ => exact absurd rfl missed
  | _ => rfl

/-- Every run of an installation is one. -/
theorem installing_of_allows (run : (x.install host).Allows acts ending) :
    Installing x host acts (ending.map Prod.fst) (x.left ending) where
  asks := (installs_of_allows run).asks
  noWindow := by
    rintro visits rest rfl
    cases installs_of_allows run
    exact ⟨rfl, rfl⟩
  registers := by
    rintro visits rest rfl
    cases installs_of_allows run <;> exact ⟨_, _, _, rfl, rfl⟩
  registered := by
    rintro visits visits' hook later rfl
    cases installs_of_allows run
    exact ⟨rfl, rfl⟩
  failed := by
    rintro visits visits' failure later rfl
    cases installs_of_allows run with
    -- Strict or not, the same two requests were made and none follows.
    | failed _ _ strict =>
      rw [strict]
      rfl
    | skipped _ _ lenient =>
      rw [lenient]
      rfl
  unwound before r visits panic later cut := by
    obtain ⟨last, unwound⟩ := run.last_of_unwound cut
    exact ⟨last, unwound ▸ rfl⟩
  strict_of_error _ := (installs_of_allows run).strict_of_error
  unchanged := (installs_of_allows run).left_eq

end Embedder

/-! ## The operation -/

section Operation

variable [DecidableEq ι]

/-- To replace an embedder by itself changes nothing. -/
theorem World.set_self (world : World ι σ) (e : ι) : world.set e (world.embedders e) = world := by
  have same : (world.set e (world.embedders e)).embedders = world.embedders := by
    rw [World.embedders_set, Function.update_eq_self]
  exact congrArg (World.mk · world.platform) same

namespace Platform

variable {platform : Platform ι ν σ} {depth : Nat} {e : ι} {host : Handle}
  {world world' : World ι σ} {record : Record ι ν}

/-- An embedder that is installed stays as it is, and so does the platform. -/
theorem operate_install_of_installed {installation : Installation}
    (installed : (world.embedders e).installation = some installation) :
    platform.operate depth (.install e host) world =
      some (.install e host [.report (.alreadyInstalled installation.host installation.hook)]
        (.returned (.ok .alreadyInstalled)), world) := by
  have program : (world.embedders e).install host =
      .report (.alreadyInstalled installation.host installation.hook)
        (.finish (.returned (.ok .alreadyInstalled, world.embedders e))) := by
    rw [Embedder.install, installed]
    rfl
  rw [operate, program]
  exact congrArg (fun after => some (_, after)) (world.set_self e)

/-- The null handle is refused without a look at it. -/
theorem operate_install_of_null (vacant : (world.embedders e).installation = none)
    (null : host.isNull = true) :
    platform.operate depth (.install e host) world =
      some (.install e host [.report (.invalidHost host)] (.returned (.ok .invalidHost)),
        world) := by
  have program : (world.embedders e).install host =
      .report (.invalidHost host) (.finish (.returned (.ok .invalidHost, world.embedders e))) := by
    rw [Embedder.install, vacant, Program.isHost, null]
    rfl
  rw [operate, program]
  exact congrArg (fun after => some (_, after)) (world.set_self e)

/-- What an installation does, and which embedder it leaves. The others are not concerned. -/
theorem installing_of_operate
    (h : platform.operate depth (.install e host) world = some (record, world')) :
    ∃ acts ending after, record = .install e host acts ending ∧
      Installing (world.embedders e) host acts ending after ∧
      world'.embedders = Function.update world.embedders e after ∧
      (ending ≠ .returned (.ok .installed) → world'.embedders = world.embedders) := by
  obtain ⟨⟨acts, ending, left⟩, ran, heq⟩ := Option.map_eq_some_iff.mp h
  obtain ⟨allowed, -, same⟩ := arise_run (platform.orderly_visit depth) _ ran
  have same : left.embedders = world.embedders := same
  have installing := Embedder.installing_of_allows allowed
  -- A run that unwound has not come to an embedder, and then it is the one from before.
  have left : world'.embedders =
      Function.update world.embedders e ((world.embedders e).left ending) := by
    cases ending with
    | returned pair =>
      cases heq
      rw [World.embedders_set, same]
      rfl
    | unwound panic =>
      cases heq
      rw [same, Embedder.left, Function.update_eq_self]
  refine ⟨acts, _, _, ?_, installing, left, fun missed => ?_⟩
  · cases ending with
    | returned pair => exact (Prod.mk.inj heq).1.symm
    | unwound panic => exact (Prod.mk.inj heq).1.symm
  · rw [left, installing.unchanged missed, Function.update_eq_self]

/-- An embedder that is installed already, and one that is given the null handle, are left alone,
and the platform is not asked for anything. Otherwise what the platform answers decides on what
comes of it, and the embedder is installed with this host and the new hook, or is in the state that
it was in before. -/
theorem installs_or_leaves (platform : Platform ι ν σ) (depth : Nat) (e : ι) (host : Handle)
    (world : World ι σ) :
    (∀ installation, (world.embedders e).installation = some installation →
      platform.operate depth (.install e host) world =
        some (.install e host [.report (.alreadyInstalled installation.host installation.hook)]
          (.returned (.ok .alreadyInstalled)), world)) ∧
    ((world.embedders e).installation = none → host.isNull = true →
      platform.operate depth (.install e host) world =
        some (.install e host [.report (.invalidHost host)] (.returned (.ok .invalidHost)),
          world)) ∧
    (∀ record world', platform.operate depth (.install e host) world = some (record, world') →
      ∃ acts ending after, record = .install e host acts ending ∧
        Installing (world.embedders e) host acts ending after ∧
        world'.embedders = Function.update world.embedders e after ∧
        (ending ≠ .returned (.ok .installed) → world'.embedders = world.embedders)) ∧
    ∀ calm, platform.Responsive (platform.visit depth) calm → calm world.platform →
      ∃ record world', platform.operate depth (.install e host) world = some (record, world') :=
  ⟨fun _ => operate_install_of_installed, operate_install_of_null,
    fun _ _ => installing_of_operate, fun calm responsive healthy => by
      obtain ⟨record, world', operated, -⟩ := exists_operate responsive healthy (.install e host)
      exact ⟨record, world', operated⟩⟩

end Platform

end Operation

/-- The error that an installation returns. -/
def Record.error? : Record ι ν → Option Failure
  | install _ _ _ (.returned (.error failure)) => some failure
  | _ => none

namespace Desktop

/-- The crowded desktop without waiting steps, on which a hook is answered with a text that is not
well formed, and with embedders that are strict. -/
def unhooked : World Nat (Desktop Nat) where
  embedders e := { crowded.embedders e with options := { strict := true } }
  platform :=
    { crowded.platform with
      faults := fun kind => if kind = .installHook then some (.failure .loneSurrogate) else none
      triggers := [] }

/-- There an installation is an error with that wording in it, and leaves nothing behind. -/
theorem installs_or_leaves_of_unhooked : ∃ acts world',
    platform.operate 0 (.install 2 ⟨1⟩) unhooked =
      some (.install 2 ⟨1⟩ acts (.returned (.error (.embedding
        (.hookRegistration "invalid utf-16: lone surrogate found")))), world') ∧
    world'.embedders = unhooked.embedders := by
  have facts := Platform.installs_or_leaves platform 0 2 ⟨1⟩ unhooked
  obtain ⟨record, world', operated⟩ := facts.2.2.2 _ (responsive 0) (Nat.le_refl 0)
  obtain ⟨acts, ending, after, rfl, installing, -, same⟩ := facts.2.2.1 _ _ operated
  have ran : (platform.operate 0 (.install 2 ⟨1⟩) unhooked).bind (·.1.error?) =
      some (.embedding (.hookRegistration "invalid utf-16: lone surrogate found")) := by
    decide +kernel
  rw [operated] at ran
  -- An ending of any other kind would have told no error.
  obtain ⟨failure, rfl⟩ : ∃ failure, ending = .returned (.error failure) := by
    rcases ending with ⟨_ | _⟩ | _
    · exact ⟨_, rfl⟩
    · cases ran
    · cases ran
  cases ran
  exact ⟨acts, world', operated, same nofun⟩

end Desktop

end PlotEmbedding
