import PlotEmbedding.Proofs.CallTree

/-!
# Histories

A history is what the owner of embedders makes of a platform: operations one after the other, and
in between the platform may change by itself. `Platform.History` holds of the records that are kept
and of the world that is reached. Every beginning of a history is a history, so a property of the
world that a history reaches is one of every point between two operations.

Only operations that end are recorded, but nothing is lost by that. The platform is arbitrary, and
for a run that goes on for ever there is a platform that does the same up to any given moment and
then panics.

`Record.Arises` says what a record tells, and which change of the embedders goes with it.
`Platform.arises_operate` derives it once for all operations.
-/

namespace PlotEmbedding

variable {ι ν σ : Type} [DecidableEq ι]

/-! ## One operation -/

/-- The record can come about when the embedders are in the first states, and leaves them in the
second. -/
inductive Record.Arises (roster : Roster ι) : Record ι ν → Roster ι → Prop where
  /-- What the name stood for is uninstalled first. -/
  | create {e : ι} {options : Options} {acts : List (Act ι ν)} {any : Ending Bool} :
      (roster e).uninstall.Allows acts any → Act.Arise (roster.vacant e) acts →
      Arises roster (.create e options acts (any.map fun _ => ()))
        (Function.update roster e (.new options))
  /-- An installation that ends has a result. -/
  | installReturned {e : ι} {host : Handle} {acts : List (Act ι ν)}
      {result : Except Failure InstallOutcome} {embedder : Embedder} :
      (roster e).Installs host acts (.returned (result, embedder)) → Act.Arise roster acts →
      Arises roster (.install e host acts (.returned result)) (Function.update roster e embedder)
  /-- An installation that unwinds has no effect. -/
  | installUnwound {e : ι} {host : Handle} {acts : List (Act ι ν)} {panic : String} :
      (roster e).Installs host acts (.unwound panic) → Act.Arise roster acts →
      Arises roster (.install e host acts (.unwound panic)) roster
  /-- The installation is taken away before its hook is released. -/
  | uninstall {e : ι} {acts : List (Act ι ν)} {ending : Ending Bool} :
      (roster e).uninstall.Allows acts ending → Act.Arise (roster.vacant e) acts →
      Arises roster (.uninstall e acts ending) (roster.vacant e)
  /-- The embedder is uninstalled and its name freed. -/
  | drop {e : ι} {acts : List (Act ι ν)} {any : Ending Bool} :
      (roster e).uninstall.Allows acts any → Act.Arise (roster.vacant e) acts →
      Arises roster (.drop e acts (any.map fun _ => ())) (Function.update roster e (.new {}))
  /-- An event is handled, or handled and handed on. -/
  | visit {visit : Visit ι ν} : Visit.Arise roster [visit] → Arises roster (.visit visit) roster

namespace Platform

variable (platform : Platform ι ν σ)

/-- The installation of an embedder is ended by the rules, and nothing else changes. -/
theorem arise_uninstall {depth : Nat} {e : ι} {world : World ι σ} {run : Run ι σ (Act ι ν) Bool}
    (h : platform.uninstall (platform.visit depth) e world = some run) :
    (world.embedders e).uninstall.Allows run.trace run.ending ∧
      Act.Arise (Roster.vacant world.embedders e) run.trace ∧
      run.world.embedders = Roster.vacant world.embedders e := by
  have hrun := arise_run (platform.orderly_visit depth) _ h
  rw [World.embedders_set] at hrun
  exact hrun

/-- An operation is recorded by the rules, which also say what becomes of the embedders. -/
theorem arises_operate {depth : Nat} {operation : Operation ι} {world world' : World ι σ}
    {record : Record ι ν} (h : platform.operate depth operation world = some (record, world')) :
    record.Arises world.embedders world'.embedders := by
  have orderly := platform.orderly_visit depth
  cases operation with
  | create e options =>
    obtain ⟨run, hrun, heq⟩ := Option.map_eq_some_iff.mp h
    cases heq
    obtain ⟨allowed, arise, same⟩ := platform.arise_uninstall hrun
    -- The installation is taken away first and the embedder replaced last, which comes to one
    -- update.
    rw [World.embedders_set, same, Roster.vacant, Function.update_idem]
    exact .create allowed arise
  | install e host =>
    obtain ⟨⟨acts, ending, after⟩, hrun, heq⟩ := Option.map_eq_some_iff.mp h
    obtain ⟨allowed, arise, same⟩ := arise_run orderly _ hrun
    have same : after.embedders = world.embedders := same
    cases ending with
    | returned pair =>
      cases heq
      rw [World.embedders_set, same]
      exact .installReturned (Embedder.installs_of_allows allowed) arise
    | unwound panic =>
      cases heq
      rw [same]
      exact .installUnwound (Embedder.installs_of_allows allowed) arise
  | uninstall e =>
    obtain ⟨run, hrun, heq⟩ := Option.map_eq_some_iff.mp h
    cases heq
    obtain ⟨allowed, arise, same⟩ := platform.arise_uninstall hrun
    rw [same]
    exact .uninstall allowed arise
  | drop e =>
    obtain ⟨run, hrun, heq⟩ := Option.map_eq_some_iff.mp h
    cases heq
    obtain ⟨allowed, arise, same⟩ := platform.arise_uninstall hrun
    rw [World.embedders_set, same, Roster.vacant, Function.update_idem]
    exact .drop allowed arise
  | process e event =>
    obtain ⟨run, hrun, heq⟩ := Option.map_eq_some_iff.mp h
    cases heq
    obtain ⟨handles, arise, same⟩ := arise_process orderly hrun
    rw [same]
    exact .visit (.process handles arise (.nil _))
  | activating e event =>
    obtain ⟨⟨visit, ending, after⟩, hrun, heq⟩ := Option.map_eq_some_iff.mp h
    cases heq
    obtain ⟨arise, same⟩ := arise_activating orderly hrun
    rw [same]
    exact .visit arise

/-! ## Operations in a row -/

/-- From the first world on, operations with these records lead to this world. -/
inductive History (first : World ι σ) : List (Record ι ν) → World ι σ → Prop where
  /-- Nothing has happened yet. -/
  | begin : History first [] first
  /-- The platform changes by itself. -/
  | shift {records : List (Record ι ν)} {world : World ι σ} (state : σ) :
      History first records world → History first records { world with platform := state }
  /-- An operation is performed. -/
  | operate {records : List (Record ι ν)} {world world' : World ι σ} {record : Record ι ν}
      {depth : Nat} {operation : Operation ι} :
      History first records world →
      platform.operate depth operation world = some (record, world') →
      History first (records ++ [record]) world'

/-- Performs operations in a row, with callbacks nested at most `depth` deep. -/
def operateAll (depth : Nat) :
    List (Operation ι) → World ι σ → Option (List (Record ι ν) × World ι σ)
  | [], world => some ([], world)
  | operation :: rest, world =>
    match platform.operate depth operation world with
    | none => none
    | some (record, world) =>
      (operateAll depth rest world).map fun (records, world) => (record :: records, world)

variable {platform}

/-- Operations in a row continue a history. -/
theorem History.operateAll {first : World ι σ} {depth : Nat} {operations : List (Operation ι)}
    {before records : List (Record ι ν)} {world world' : World ι σ}
    (history : platform.History first before world)
    (h : platform.operateAll depth operations world = some (records, world')) :
    platform.History first (before ++ records) world' := by
  induction operations generalizing before records world with
  | nil =>
    cases h
    rw [List.append_nil]
    exact history
  | cons operation rest ih =>
    rw [Platform.operateAll] at h
    split at h
    · exact nomatch h
    · next record after operated =>
      obtain ⟨⟨later, world''⟩, hlater, heq⟩ := Option.map_eq_some_iff.mp h
      cases heq
      rw [List.append_cons]
      exact ih (history.operate operated) hlater

/-- A history can be cut in two between any two records. -/
theorem History.cut {first world : World ι σ} {before later : List (Record ι ν)}
    (history : platform.History first (before ++ later) world) :
    ∃ middle, platform.History first before middle ∧ platform.History middle later world := by
  generalize whole : before ++ later = records at history
  induction history generalizing later with
  | begin =>
    obtain ⟨rfl, rfl⟩ := List.append_eq_nil_iff.mp whole
    exact ⟨first, .begin, .begin⟩
  | shift state _ ih =>
    obtain ⟨middle, earlier, rest⟩ := ih whole
    exact ⟨middle, earlier, rest.shift state⟩
  | operate history operated ih =>
    -- The last record is on the far side of the cut, unless there is nothing on that side.
    rcases List.eq_nil_or_concat later with rfl | ⟨later, last, rfl⟩
    · rw [List.append_nil] at whole
      subst whole
      exact ⟨_, history.operate operated, .begin⟩
    · rw [List.concat_eq_append, ← List.append_assoc] at whole
      obtain ⟨front, same⟩ := List.append_inj' whole rfl
      obtain rfl := List.singleton_inj.mp same
      obtain ⟨middle, earlier, rest⟩ := ih front
      rw [List.concat_eq_append]
      exact ⟨middle, earlier, rest.operate operated⟩

/-- What every operation preserves holds of the embedders at the end of a history, and of the
embedders before each of its records. -/
theorem History.preserves {I : Roster ι → Prop} {first world : World ι σ}
    {records : List (Record ι ν)} (history : platform.History first records world)
    (step : ∀ ⦃roster⦄ ⦃record : Record ι ν⦄ ⦃after⦄, record.Arises roster after →
      I roster → I after)
    (start : I first.embedders) :
    I world.embedders ∧
      ∀ record ∈ records, ∃ roster after, I roster ∧ record.Arises roster after := by
  induction history with
  | begin => exact ⟨start, nofun⟩
  | shift state _ ih => exact ih
  | operate _ operated ih =>
    have arises := platform.arises_operate operated
    refine ⟨step arises ih.1, fun record hrecord => ?_⟩
    rcases List.mem_append.mp hrecord with hrecord | hrecord
    · -- The states before an earlier record are those of the shorter history.
      exact ih.2 record hrecord
    · rw [List.mem_singleton.mp hrecord]
      exact ⟨_, _, ih.1, arises⟩

end Platform

end PlotEmbedding
