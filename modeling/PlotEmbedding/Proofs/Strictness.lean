import PlotEmbedding.Desktop.Settling
import PlotEmbedding.Proofs.InForce

/-!
# Strict embedders differ in what they report

An embedder may be strict or not, and the difference is to show in the one case that its hook
cannot be registered. Two runs are compared here, from the first operation to the last: they begin
alike but for the strictness of one embedder, and the platform changes in the same ways in between.
`Platform.trail` is a run with all that can be told of it, and `Hardens` says how the trail of the
strict embedder follows from the other one.

What a program does depends on the world only through what the platform answers, and the platform
does not get to know how strict an embedder is. It may look at the embedder, but only to note what
it sees, and so `Act.withStrict` is all that becomes of a call tree. `Visitor.Blind` carries this
through callbacks at every depth of nesting. Installing is the one program that is not the same for
both embedders, and is compared request by request in `install_withStrict`. Where every request
comes to an end both trails are there, by `Platform.exists_trail`, and so they are on every desktop.
-/

namespace PlotEmbedding

variable {ι ν σ α : Type}

/-! ## The same with a strict embedder -/

/-- The embedder with this strictness, and else the same. -/
def Embedder.withStrict (x : Embedder) (strict : Bool) : Embedder :=
  { x with options := { x.options with strict } }

/-- Strictness makes no difference to how an embedder responds. -/
theorem Embedder.respond_withStrict (x : Embedder) (strict : Bool) (win : Handle) :
    (x.withStrict strict).respond win = x.respond win := rfl

/-- Strictness makes no difference to how an embedder hands an event on. -/
theorem Embedder.handOn_withStrict (x : Embedder) (strict : Bool) (event : Event)
    (outcome : ActivationOutcome) :
    (x.withStrict strict).handOn event outcome = x.handOn event outcome := rfl

/-- Strictness makes no difference to how an embedder is uninstalled. -/
theorem Embedder.uninstall_withStrict (x : Embedder) (strict : Bool) :
    (x.withStrict strict).uninstall = x.uninstall := rfl

variable [DecidableEq ι]

/-- The world in which an embedder has this strictness, and else the same. -/
def World.withStrict (e : ι) (strict : Bool) (world : World ι σ) : World ι σ :=
  { world with
    embedders := Function.update world.embedders e ((world.embedders e).withStrict strict) }

mutual

/-- The act, if the embedder has this strictness whenever the platform looks at it. -/
def Act.withStrict (e : ι) (strict : Bool) : Act ι ν → Act ι ν
  | .report line => .report line
  | .call request visits ending => .call request (Visit.allWithStrict e strict visits) ending

/-- The acts, if the embedder has this strictness whenever the platform looks at it. -/
def Act.allWithStrict (e : ι) (strict : Bool) : List (Act ι ν) → List (Act ι ν)
  | [] => []
  | act :: rest => act.withStrict e strict :: Act.allWithStrict e strict rest

/-- The visit, if the embedder has this strictness whenever the platform looks at it. -/
def Visit.withStrict (e : ι) (strict : Bool) : Visit ι ν → Visit ι ν
  | .process name event acts ending =>
    .process name event (Act.allWithStrict e strict acts) ending
  | .activating name event handling outcome handingOn ending =>
    .activating name event (Act.allWithStrict e strict handling) outcome
      (Act.allWithStrict e strict handingOn) ending
  | .look name embedder =>
    .look name (if name = e then embedder.withStrict strict else embedder)
  | .note n => .note n

/-- The visits, if the embedder has this strictness whenever the platform looks at it. -/
def Visit.allWithStrict (e : ι) (strict : Bool) : List (Visit ι ν) → List (Visit ι ν)
  | [] => []
  | visit :: rest => visit.withStrict e strict :: Visit.allWithStrict e strict rest

end

/-- The record, if the embedder has this strictness whenever the platform looks at it. -/
def Record.withStrict (e : ι) (strict : Bool) : Record ι ν → Record ι ν
  | create name options acts ending =>
    .create name options (Act.allWithStrict e strict acts) ending
  | install name host acts ending => .install name host (Act.allWithStrict e strict acts) ending
  | uninstall name acts ending => .uninstall name (Act.allWithStrict e strict acts) ending
  | drop name acts ending => .drop name (Act.allWithStrict e strict acts) ending
  | visit v => .visit (v.withStrict e strict)

namespace World

variable (e : ι) (strict : Bool) (world : World ι σ)

@[simp] theorem platform_withStrict : (world.withStrict e strict).platform = world.platform := rfl

@[simp] theorem embedders_withStrict_self :
    (world.withStrict e strict).embedders e = (world.embedders e).withStrict strict :=
  Function.update_self ..

theorem embedders_withStrict_of_ne {e name : ι} (other : name ≠ e) :
    (world.withStrict e strict).embedders name = world.embedders name :=
  Function.update_of_ne other ..

/-- What can be told of an embedder without its strictness is told of each embedder alike. -/
theorem apply_embedders_withStrict {β : Type} {f : Embedder → β}
    (blind : ∀ x, f (x.withStrict strict) = f x) (name : ι) :
    f ((world.withStrict e strict).embedders name) = f (world.embedders name) := by
  by_cases own : name = e
  · subst own
    rw [embedders_withStrict_self, blind]
  · rw [embedders_withStrict_of_ne strict world own]

/-- What takes the place of another embedder does not mind. -/
theorem set_withStrict_of_ne {e name : ι} (other : name ≠ e) (x : Embedder) :
    (world.withStrict e strict).set name x = (world.set name x).withStrict e strict := by
  refine congrArg (World.mk · world.platform) ?_
  funext name'
  by_cases own : name' = e
  · subst own
    simp [set, Ne.symm other]
  · simp [set, withStrict, own]

/-- What takes the place of the embedder has its strictness to begin with. -/
theorem set_self_withStrict (x : Embedder) :
    (world.withStrict e strict).set e (x.withStrict strict) =
      (world.set e x).withStrict e strict := by
  refine congrArg (World.mk · world.platform) ?_
  funext name
  by_cases own : name = e
  · subst own
    simp [set]
  · simp [set, withStrict, own]

/-- A change of an embedder that does not mind its strictness may come before or after. -/
theorem set_withStrict {f : Embedder → Embedder}
    (blind : ∀ x, f (x.withStrict strict) = (f x).withStrict strict) (name : ι) :
    (world.withStrict e strict).set name (f ((world.withStrict e strict).embedders name)) =
      (world.set name (f (world.embedders name))).withStrict e strict := by
  by_cases own : name = e
  · subst own
    rw [embedders_withStrict_self, blind, set_self_withStrict]
  · rw [embedders_withStrict_of_ne strict world own, set_withStrict_of_ne strict world own]

/-- The flag does not mind. -/
theorem setProcessing_withStrict (name : ι) (processing : Bool) :
    (world.withStrict e strict).setProcessing name processing =
      (world.setProcessing name processing).withStrict e strict :=
  world.set_withStrict e strict (f := fun x => { x with processing }) (fun _ => rfl) name

/-- Strictness is lost with the embedder. -/
theorem set_withStrict_self (x : Embedder) :
    (world.withStrict e strict).set e x = world.set e x := by
  refine congrArg (World.mk · world.platform) ?_
  funext name
  by_cases own : name = e
  · subst own
    simp
  · simp [withStrict, own]

end World

/-! ## Runs -/

/-- The run that has shown what `seen` makes of its trace, and has left the embedder with this
strictness. -/
def Run.withStrict {τ : Type} (e : ι) (strict : Bool) (seen : List τ → List τ)
    (run : Run ι σ τ α) : Run ι σ τ α :=
  ⟨seen run.trace, run.ending, run.world.withStrict e strict⟩

/-- What callbacks do is the same in a world in which the embedder has this strictness, but for what
the platform sees. -/
def Visitor.Blind (e : ι) (strict : Bool) (visitor : Visitor ι ν σ) : Prop :=
  ∀ call world, visitor call (world.withStrict e strict) =
    (visitor call world).map fun (visit, reply, after) =>
      (visit.withStrict e strict, reply, after.withStrict e strict)

section Blind

variable {e : ι} {strict : Bool} {platform : Platform ι ν σ} {visitor : Visitor ι ν σ}
  (blind : visitor.Blind e strict)
include blind

/-- While a request is pending, the strictness of an embedder does not matter. -/
theorem follow_withStrict (reaction : Reaction ι ν σ α) (world : World ι σ) :
    reaction.follow visitor (world.withStrict e strict).embedders =
      (reaction.follow visitor world.embedders).map
        (Run.withStrict e strict (Visit.allWithStrict e strict)) := by
  induction reaction generalizing world with
  | finish ending state => rfl
  | look name rest ih =>
    rw [Reaction.follow, Reaction.follow, ih, Option.map_map, Option.map_map]
    have seen : (world.withStrict e strict).embedders name =
        if name = e then (world.embedders name).withStrict strict else world.embedders name := by
      by_cases own : name = e
      · subst own
        rw [World.embedders_withStrict_self, if_pos rfl]
      · rw [World.embedders_withStrict_of_ne strict world own, if_neg own]
    rw [seen]
    rfl
  | note n rest ih =>
    rw [Reaction.follow, Reaction.follow, ih, Option.map_map, Option.map_map]
    rfl
  | callback call state resume ih =>
    have visited := blind call ⟨world.embedders, state⟩
    have same : visitor call ⟨(world.withStrict e strict).embedders, state⟩ =
        visitor call (World.withStrict e strict ⟨world.embedders, state⟩) := rfl
    rw [Reaction.follow, Reaction.follow, same, visited]
    cases visitor call ⟨world.embedders, state⟩ with
    | none => rfl
    | some found =>
      obtain ⟨visit, reply, after⟩ := found
      simp only [Option.map_some, World.platform_withStrict, ih, Option.map_map]
      rfl

/-- A program does the same, whatever the strictness of the embedder is. -/
theorem run_withStrict (program : Program α) (world : World ι σ) :
    program.run platform visitor (world.withStrict e strict) =
      (program.run platform visitor world).map
        (Run.withStrict e strict (Act.allWithStrict e strict)) := by
  induction program generalizing world with
  | finish ending => rfl
  | report line rest ih =>
    rw [Program.run, Program.run, ih, Option.map_map, Option.map_map]
    rfl
  | request r next ih =>
    rw [Program.run, Program.run, World.platform_withStrict, follow_withStrict blind]
    cases (platform.react r world.platform).follow visitor world.embedders with
    | none => rfl
    | some found =>
      obtain ⟨visits, ending, after⟩ := found
      cases ending with
      | returned answer =>
        simp only [Option.map_some, Run.withStrict, ih, Option.map_map]
        rfl
      | unwound panic => rfl

/-- An event is handled in the same way, whatever the strictness of the embedder is. -/
theorem process_withStrict (name : ι) (event : Event) (world : World ι σ) :
    platform.process visitor name event (world.withStrict e strict) =
      (platform.process visitor name event world).map
        (Run.withStrict e strict (Act.allWithStrict e strict)) := by
  have same : ∀ win, ((world.withStrict e strict).embedders name).respond win =
      (world.embedders name).respond win := fun win =>
    world.apply_embedders_withStrict e strict (f := fun x => x.respond win)
      (Embedder.respond_withStrict · strict win) name
  have flag : ((world.withStrict e strict).embedders name).processing =
      (world.embedders name).processing :=
    world.apply_embedders_withStrict e strict (f := Embedder.processing) (fun _ => rfl) name
  unfold Platform.process
  cases event.activating? with
  | none => rfl
  | some win =>
    simp only [flag, same, World.setProcessing_withStrict, run_withStrict blind]
    split
    · rfl
    · rw [Option.map_map, Option.map_map]
      refine congrArg (Option.map · _) ?_
      funext run
      exact congrArg (Run.mk _ _) (World.setProcessing_withStrict ..)

/-- An event is handled and handed on in the same way, whatever the strictness of the embedder
is. -/
theorem activating_withStrict (name : ι) (event : Event) (world : World ι σ) :
    platform.activating visitor name event (world.withStrict e strict) =
      (platform.activating visitor name event world).map fun (visit, ending, after) =>
        (visit.withStrict e strict, ending, after.withStrict e strict) := by
  unfold Platform.activating
  rw [process_withStrict blind]
  cases platform.process visitor name event world with
  | none => rfl
  | some found =>
    obtain ⟨handling, ending, after⟩ := found
    cases ending with
    | unwound panic => rfl
    | returned outcome =>
      have same : ((after.withStrict e strict).embedders name).handOn event outcome =
          (after.embedders name).handOn event outcome :=
        after.apply_embedders_withStrict e strict (f := fun x => x.handOn event outcome)
          (Embedder.handOn_withStrict · strict event outcome) name
      simp only [Option.map_some, Run.withStrict, same, run_withStrict blind, Option.map_map]
      rfl

end Blind

/-- Callbacks do the same at every depth of nesting, whatever the strictness of the embedder is. -/
theorem Platform.blind_visit (platform : Platform ι ν σ) (e : ι) (strict : Bool) (depth : Nat) :
    (platform.visit depth).Blind e strict := by
  induction depth with
  | zero => exact fun call world => rfl
  | succ depth ih =>
    intro call world
    cases call with
    | process name event =>
      rw [Platform.visit, Platform.visit, process_withStrict ih, Option.map_map, Option.map_map]
      rfl
    | activating name event =>
      rw [Platform.visit, Platform.visit, activating_withStrict ih, Option.map_map, Option.map_map]
      rfl

/-! ## Operations -/

/-- An installation is ended in the same way, whatever the strictness of the embedder is. -/
theorem Platform.uninstall_withStrict {e : ι} {strict : Bool} {platform : Platform ι ν σ}
    {visitor : Visitor ι ν σ} (blind : visitor.Blind e strict) (name : ι) (world : World ι σ) :
    platform.uninstall visitor name (world.withStrict e strict) =
      (platform.uninstall visitor name world).map
        (Run.withStrict e strict (Act.allWithStrict e strict)) := by
  have same : ((world.withStrict e strict).embedders name).uninstall =
      (world.embedders name).uninstall :=
    world.apply_embedders_withStrict e strict (f := Embedder.uninstall)
      (Embedder.uninstall_withStrict · strict) name
  have vacated := world.set_withStrict e strict
    (f := fun x => { x with installation := none }) (fun _ => rfl) name
  rw [Platform.uninstall, Platform.uninstall, same, vacated, run_withStrict blind]

/-- What a run of an installation by an embedder that is not strict becomes if it is strict. -/
inductive Run.Hardens (e : ι) :
    Run ι σ (Act ι ν) (Except Failure InstallOutcome × Embedder) →
    Run ι σ (Act ι ν) (Except Failure InstallOutcome × Embedder) → Prop where
  /-- The hook cannot be registered. -/
  | failed {before : List (Act ι ν)} {visits : List (Visit ι ν)} {failure : Failure} {x : Embedder}
      {world : World ι σ} :
      Hardens e
        ⟨before ++ [.call .installHook visits (.returned (.error failure)),
            .report (.registrationFailed failure)],
          .returned (.ok .registrationFailed, x), world⟩
        ⟨Act.allWithStrict e true before ++
            [.call .installHook (Visit.allWithStrict e true visits) (.returned (.error failure))],
          .returned (.error (.embedding (.hookRegistration failure.message)), x.withStrict true),
          world.withStrict e true⟩
  /-- Nothing is different. -/
  | same {acts : List (Act ι ν)} {ending : Ending (Except Failure InstallOutcome × Embedder)}
      {world : World ι σ} : (∀ x, ending ≠ .returned (.ok .registrationFailed, x)) →
      Hardens e ⟨acts, ending, world⟩
        ⟨Act.allWithStrict e true acts,
          ending.map fun (result, x) => (result, x.withStrict true), world.withStrict e true⟩

/-- One more act in front makes no difference. -/
theorem Run.Hardens.after {e : ι}
    {run run' : Option (Run ι σ (Act ι ν) (Except Failure InstallOutcome × Embedder))}
    (h : Option.Rel (Run.Hardens e) run run') (act : Act ι ν) :
    Option.Rel (Run.Hardens e) (run.map (·.after act))
      (run'.map (·.after (act.withStrict e true))) := by
  cases h with
  | none => exact .none
  | some hardens =>
    cases hardens with
    | @failed before visits failure x world =>
      exact .some (@Run.Hardens.failed _ _ _ _ e (act :: before) visits failure x world)
    | same other => exact .some (.same other)

/-- Two programs that begin with the same request are compared by what follows on each answer. -/
theorem rel_request {e : ι} {platform : Platform ι ν σ} {visitor : Visitor ι ν σ} {r : Request}
    {next next' : r.Answer → Program (Except Failure InstallOutcome × Embedder)}
    (blind : visitor.Blind e true)
    (answered : ∀ visits answer world, Option.Rel (Run.Hardens e)
      (((next answer).run platform visitor world).map
        (·.after (.call r visits (.returned answer))))
      (((next' answer).run platform visitor (world.withStrict e true)).map
        (·.after (.call r (Visit.allWithStrict e true visits) (.returned answer)))))
    (world : World ι σ) :
    Option.Rel (Run.Hardens e) ((Program.request r next).run platform visitor world)
      ((Program.request r next').run platform visitor (world.withStrict e true)) := by
  rw [Program.run, Program.run, World.platform_withStrict, follow_withStrict blind]
  cases (platform.react r world.platform).follow visitor world.embedders with
  | none => exact .none
  | some found =>
    obtain ⟨visits, ending, after⟩ := found
    cases ending with
    | unwound panic => exact .some (.same (by simp))
    | returned answer => exact answered visits answer after

/-- An installation by a strict embedder is the same as by one that is not, except if the hook
cannot be registered. -/
theorem install_withStrict {e : ι} {platform : Platform ι ν σ} {visitor : Visitor ι ν σ}
    (blind : visitor.Blind e true) {x : Embedder} (lenient : x.options.strict = false)
    (host : Handle) (world : World ι σ) :
    Option.Rel (Run.Hardens e) ((x.install host).run platform visitor world)
      (((x.withStrict true).install host).run platform visitor (world.withStrict e true)) := by
  cases installed : x.installation with
  | some installation =>
    have installed' : (x.withStrict true).installation = some installation := installed
    rw [Embedder.install, Embedder.install, installed, installed']
    exact .some (.same nofun)
  | none =>
    have vacant : (x.withStrict true).installation = none := installed
    rw [Embedder.install, Embedder.install, installed, vacant]
    by_cases null : host.isNull = true
    · -- Neither embedder gets to the registration, the only place where they may differ.
      simp only [Program.isHost, null, if_true]
      exact .some (.same nofun)
    · simp only [Program.isHost, null]
      refine rel_request blind (fun visits valid world => ?_) world
      cases valid with
      | false => exact .some (.same nofun)
      | true =>
        refine Run.Hardens.after (rel_request blind (fun visits answer world => ?_) world) _
        cases answer with
        | ok hook => exact .some (.same nofun)
        | error failure =>
          have strict : (x.withStrict true).options.strict = true := rfl
          -- One makes a report of the failure and the other an error.
          simp only [lenient, strict, if_true]
          exact .some (@Run.Hardens.failed _ _ _ _ e [] visits failure x world)

/-- What the record of an operation becomes if an embedder is strict that was not. -/
inductive Record.Hardens (e : ι) : Record ι ν → Record ι ν → Prop where
  /-- The embedder is to be installed, and its hook cannot be registered. This is an error now and
  no longer a warning. -/
  | failed {host : Handle} {before : List (Act ι ν)} {visits : List (Visit ι ν)}
      {failure : Failure} :
      Hardens e
        (.install e host
          (before ++ [.call .installHook visits (.returned (.error failure)),
            .report (.registrationFailed failure)])
          (.returned (.ok .registrationFailed)))
        (.install e host
          (Act.allWithStrict e true before ++
            [.call .installHook (Visit.allWithStrict e true visits) (.returned (.error failure))])
          (.returned (.error (.embedding (.hookRegistration failure.message)))))
  /-- Nothing is different. -/
  | same {record : Record ι ν} :
      (∀ host acts, record ≠ .install e host acts (.returned (.ok .registrationFailed))) →
      Hardens e record (record.withStrict e true)

/-- What the record of an operation and the world after it become if an embedder is strict that was
not. The embedder is strict afterwards unless the operation gives it up. -/
def StepHardens (e : ι) : Record ι ν × World ι σ → Record ι ν × World ι σ → Prop :=
  fun (record, after) (record', after') =>
    (record.replaced? ≠ some e ∧ record.Hardens e record' ∧ after' = after.withStrict e true) ∨
    (record.replaced? = some e ∧ record' = record.withStrict e true ∧ after' = after)

/-- If an embedder is replaced then either it is the one that is strict, and given up, or it makes
no difference. -/
theorem StepHardens.of_replaced {e name : ι} {record : Record ι ν}
    (replaced : record.replaced? = some name) (world : World ι σ) (x : Embedder) :
    StepHardens e (record, world.set name x)
      (record.withStrict e true, (world.withStrict e true).set name x) := by
  by_cases own : name = e
  · subst own
    exact .inr ⟨replaced, rfl, World.set_withStrict_self ..⟩
  · refine .inl ⟨fun h => own (Option.some.inj (replaced.symm.trans h)), .same ?_, ?_⟩
    · rintro host acts rfl
      cases replaced
    · exact World.set_withStrict_of_ne true world own x

/-- Two operations are compared by what they make of one and the same run. -/
theorem rel_map {τ κ κ' : Type} {R : κ → κ' → Prop} {f : τ → κ} {g : τ → κ'}
    (related : ∀ run, R (f run) (g run)) (found : Option τ) :
    Option.Rel R (found.map f) (found.map g) := by
  cases found with
  | none => exact .none
  | some run => exact .some (related run)

namespace Platform

variable (platform : Platform ι ν σ) {e : ι} {world : World ι σ}

/-- The installation of an embedder is the same if it is strict, except if its hook cannot be
registered. -/
theorem operate_install_withStrict (lenient : (world.embedders e).options.strict = false)
    (depth : Nat) (host : Handle) :
    Option.Rel (StepHardens e) (platform.operate depth (.install e host) world)
      (platform.operate depth (.install e host) (world.withStrict e true)) := by
  have kept : none ≠ some e := (Option.some_ne_none e).symm
  have installs : Option.Rel (Run.Hardens e)
      (((world.embedders e).install host).run platform (platform.visit depth) world)
      ((((world.embedders e).withStrict true).install host).run platform (platform.visit depth)
        (world.withStrict e true)) :=
    install_withStrict (platform.blind_visit e true depth) lenient host world
  rw [operate, operate, World.embedders_withStrict_self]
  generalize ((world.embedders e).install host).run platform (platform.visit depth) world =
    run at installs ⊢
  generalize (((world.embedders e).withStrict true).install host).run platform
    (platform.visit depth) (world.withStrict e true) = run' at installs ⊢
  cases installs with
  | none => exact .none
  | some hardens =>
    refine .some (.inl ?_)
    cases hardens with
    -- The embedder is put back as it was, and so it differs in its strictness still.
    | failed => exact ⟨kept, .failed, World.set_self_withStrict ..⟩
    | @same acts ending after other =>
      cases ending with
      | unwound panic => exact ⟨kept, .same (by simp), rfl⟩
      | returned pair =>
        obtain ⟨result, x⟩ := pair
        refine ⟨kept, .same ?_, World.set_self_withStrict ..⟩
        rintro host acts ⟨⟩
        exact other x rfl

/-- The installation of any other embedder makes no difference. -/
theorem operate_install_withStrict_of_ne {name : ι} (own : name ≠ e) (depth : Nat)
    (host : Handle) :
    Option.Rel (StepHardens e) (platform.operate depth (.install name host) world)
      (platform.operate depth (.install name host) (world.withStrict e true)) := by
  have kept : none ≠ some e := (Option.some_ne_none e).symm
  rw [operate, operate, World.embedders_withStrict_of_ne true world own,
    run_withStrict (platform.blind_visit e true depth), Option.map_map]
  refine rel_map (fun run => .inl ?_) _
  obtain ⟨acts, ending, after⟩ := run
  -- A registration may fail here too, but it is the one of another embedder.
  have other : ∀ {ending : Ending (Except Failure InstallOutcome)} host' acts',
      (Record.install name host acts ending : Record ι ν) ≠
        .install e host' acts' (.returned (.ok .registrationFailed)) := by
    rintro ending host' acts' ⟨⟩
    exact own rfl
  cases ending with
  | unwound panic => exact ⟨kept, .same other, rfl⟩
  | returned pair => exact ⟨kept, .same other, World.set_withStrict_of_ne true after own _⟩

/-- An operation is the same if an embedder is strict, except if the hook of the embedder cannot be
registered. -/
theorem operate_withStrict (lenient : (world.embedders e).options.strict = false) (depth : Nat)
    (operation : Operation ι) :
    Option.Rel (StepHardens e) (platform.operate depth operation world)
      (platform.operate depth operation (world.withStrict e true)) := by
  have blind := platform.blind_visit e true depth
  have kept : none ≠ some e := (Option.some_ne_none e).symm
  cases operation with
  | create name options =>
    rw [operate, operate, uninstall_withStrict blind, Option.map_map]
    exact rel_map (fun run => .of_replaced rfl run.world _) _
  | install name host =>
    by_cases own : name = e
    · subst own
      exact platform.operate_install_withStrict lenient depth host
    · exact platform.operate_install_withStrict_of_ne own depth host
  | uninstall name =>
    rw [operate, operate, uninstall_withStrict blind, Option.map_map]
    exact rel_map (fun run => .inl ⟨kept, .same (by simp), rfl⟩) _
  | drop name =>
    -- The name is free again, and what it is given next knows nothing of the strictness.
    rw [operate, operate, uninstall_withStrict blind, Option.map_map]
    exact rel_map (fun run => .of_replaced rfl run.world _) _
  | process name event =>
    rw [operate, operate, process_withStrict blind, Option.map_map]
    exact rel_map (fun run => .inl ⟨kept, .same (by simp), rfl⟩) _
  | activating name event =>
    rw [operate, operate, activating_withStrict blind, Option.map_map]
    exact rel_map (fun found => .inl ⟨kept, .same (by simp), rfl⟩) _

end Platform

/-! ## Whole runs -/

/-- The world once the platform has changed by itself. -/
def World.shift (change : σ → σ) (world : World ι σ) : World ι σ :=
  { world with platform := change world.platform }

namespace Platform

variable (platform : Platform ι ν σ)

/-- Performs operations in a row, with callbacks nested at most as deep as `depth` allows for the
state of the platform. Before each operation the platform changes by itself. What is told is the
record of each operation and the world after it. -/
def trail (depth : σ → Nat) :
    List ((σ → σ) × Operation ι) → World ι σ → Option (List (Record ι ν × World ι σ))
  | [], _ => some []
  | (change, operation) :: rest, world =>
    match platform.operate (depth (change world.platform)) operation (world.shift change) with
    | none => none
    | some (record, after) => (trail depth rest after).map ((record, after) :: ·)

/-- Every trail comes to an end if every request does. -/
theorem exists_trail {platform : Platform ι ν σ} {depth : σ → Nat}
    (responsive : platform.ResponsiveWithin depth) (stages : List ((σ → σ) × Operation ι))
    (world : World ι σ) : ∃ trail, platform.trail depth stages world = some trail := by
  induction stages generalizing world with
  | nil => exact ⟨[], rfl⟩
  | cons stage rest ih =>
    obtain ⟨change, operation⟩ := stage
    obtain ⟨calm, healthy, attentive⟩ := responsive (change world.platform)
    have healthy : calm (world.shift change).platform := healthy
    obtain ⟨record, after, operated, -⟩ := exists_operate attentive healthy operation
    obtain ⟨trail, went⟩ := ih after
    rw [Platform.trail, operated]
    exact ⟨_, congrArg (Option.map _) went⟩

end Platform

/-- What a trail becomes if an embedder is strict that was not. -/
inductive Hardens (e : ι) :
    List (Record ι ν × World ι σ) → List (Record ι ν × World ι σ) → Prop where
  /-- The trail is over. -/
  | nil : Hardens e [] []
  /-- An operation is performed, after which all is the same but for the strictness. -/
  | kept {record record' : Record ι ν} {after : World ι σ}
      {rest rest' : List (Record ι ν × World ι σ)} :
      record.replaced? ≠ some e → record.Hardens e record' → Hardens e rest rest' →
      Hardens e ((record, after) :: rest) ((record', after.withStrict e true) :: rest')
  /-- The embedder is given up, and there is no difference any more. -/
  | replaced {record : Record ι ν} {after : World ι σ} {rest : List (Record ι ν × World ι σ)} :
      record.replaced? = some e →
      Hardens e ((record, after) :: rest) ((record.withStrict e true, after) :: rest)

/-- The trails of an embedder that is not strict and of one that is, from any world on. -/
theorem Platform.trail_rel (platform : Platform ι ν σ) (depth : σ → Nat) {e : ι}
    (stages : List ((σ → σ) × Operation ι)) {world : World ι σ}
    (lenient : (world.embedders e).options.strict = false) :
    Option.Rel (Hardens e) (platform.trail depth stages world)
      (platform.trail depth stages (world.withStrict e true)) := by
  induction stages generalizing world with
  | nil => exact .some .nil
  | cons stage rest ih =>
    obtain ⟨change, operation⟩ := stage
    have lenient : ((world.shift change).embedders e).options.strict = false := lenient
    have stepped :=
      platform.operate_withStrict lenient (depth (change world.platform)) operation
    have same : (world.withStrict e true).shift change = (world.shift change).withStrict e true :=
      rfl
    rw [trail, trail, same, World.platform_withStrict]
    generalize operated : platform.operate (depth (change world.platform)) operation
      (world.shift change) = step at stepped ⊢
    generalize platform.operate (depth (change world.platform)) operation
      ((world.shift change).withStrict e true) = step' at stepped ⊢
    cases stepped with
    | none => exact .none
    | @some step step' related =>
      obtain ⟨record, after⟩ := step
      obtain ⟨record', after'⟩ := step'
      dsimp only
      rcases related with ⟨kept, hardens, rfl⟩ | ⟨gone, rfl, rfl⟩
      · -- The embedder still has the options from before, so the induction goes on.
        have lenient : (after.embedders e).options.strict = false := by
          rw [((platform.arises_operate operated).leads e).options kept]
          exact lenient
        have rests := ih lenient
        generalize platform.trail depth rest after = left at rests ⊢
        generalize platform.trail depth rest (after.withStrict e true) = right at rests ⊢
        cases rests with
        | none => exact .none
        | some later => exact .some (.kept kept hardens later)
      · -- Both worlds are the same from here on, and so is all that follows.
        cases platform.trail depth rest after' with
        | none => exact .none
        | some later => exact .some (.replaced gone)

/-- Two runs that begin alike but for the strictness of an embedder go the same way, on every
platform and whatever fails or panics: each operation makes the same requests and gets the same
answers, has the same result, and leaves the same world behind but for the strictness. The one
exception is an installation of the embedder for which the hook cannot be registered. It has the
outcome that the registration failed, with a warning, if the embedder is not strict, and if it is
strict an error that gives the failure, without a warning; and it also leaves the same world behind.
All this is so until the embedder is given up. Both runs come to an end if every request does. -/
theorem Platform.trail_withStrict (platform : Platform ι ν σ) (depth : σ → Nat) (e : ι)
    (stages : List ((σ → σ) × Operation ι)) (world : World ι σ) :
    Option.Rel (Hardens e) (platform.trail depth stages (world.withStrict e false))
      (platform.trail depth stages (world.withStrict e true)) ∧
    (platform.ResponsiveWithin depth → ∃ lenient strict,
      platform.trail depth stages (world.withStrict e false) = some lenient ∧
      platform.trail depth stages (world.withStrict e true) = some strict ∧
      Hardens e lenient strict) := by
  have again : (world.withStrict e false).withStrict e true = world.withStrict e true := by
    refine congrArg (World.mk · world.platform) ?_
    simp [World.withStrict, Embedder.withStrict]
  have related : Option.Rel (Hardens e) (platform.trail depth stages (world.withStrict e false))
      (platform.trail depth stages (world.withStrict e true)) := by
    rw [← again]
    exact platform.trail_rel depth stages (by simp [Embedder.withStrict])
  refine ⟨related, fun responsive => ?_⟩
  obtain ⟨lenient, went⟩ := exists_trail responsive stages (world.withStrict e false)
  obtain ⟨strict, went'⟩ := exists_trail responsive stages (world.withStrict e true)
  rw [went, went'] at related
  cases related with
  | some hardens => exact ⟨lenient, strict, went, went', hardens⟩

namespace Desktop

/-- The registration of hooks comes to fail, and then an embedder is installed. -/
def rejection : List ((Desktop Nat → Desktop Nat) × Operation Nat) :=
  [((·.setFault .installHook (some (.failure .loneSurrogate))), .install 2 ⟨1⟩)]

/-- On the crowded desktop this has an outcome of its own, with a warning, or is an error if the
embedder is strict. -/
theorem trail_withStrict_of_crowded : ∃ after,
    platform.trail pending rejection (crowded.withStrict 2 false) =
      some [(.install 2 ⟨1⟩
        [.call (.isWindow ⟨1⟩) [] (.returned true),
          .call .installHook [] (.returned (.error .loneSurrogate)),
          .report (.registrationFailed .loneSurrogate)]
        (.returned (.ok .registrationFailed)), after)] ∧
    platform.trail pending rejection (crowded.withStrict 2 true) =
      some [(.install 2 ⟨1⟩
        [.call (.isWindow ⟨1⟩) [] (.returned true),
          .call .installHook [] (.returned (.error .loneSurrogate))]
        (.returned (.error (.embedding (.hookRegistration Failure.loneSurrogate.message)))),
        after.withStrict 2 true)] := by
  obtain ⟨lenient, strict, went, went', hardens⟩ :=
    (Platform.trail_withStrict platform pending 2 rejection crowded).2 responsiveWithin
  refine ⟨_, rfl, ?_⟩
  rw [went']
  obtain rfl := Option.some.inj went
  cases hardens with
  | replaced gone => exact absurd gone (by decide)
  | kept _ differs rest =>
    cases rest
    generalize failed : Record.install 2 ⟨1⟩ _ _ = record at differs
    cases differs with
    | same other => exact absurd failed.symm (other _ _)
    | @failed host before visits failure =>
      obtain ⟨-, rfl, acts, -⟩ := Record.install.inj failed
      -- The failed registration and its report are the last two acts on both sides.
      have acts : [Act.call (.isWindow ⟨1⟩) [] (.returned true)] ++
          [.call .installHook [] (.returned (.error .loneSurrogate)),
            .report (.registrationFailed .loneSurrogate)] =
          before ++ [.call .installHook visits (.returned (.error failure)),
            .report (.registrationFailed failure)] := acts
      obtain ⟨first, last⟩ := List.append_inj' acts rfl
      subst first
      cases last
      rfl

end Desktop

end PlotEmbedding
