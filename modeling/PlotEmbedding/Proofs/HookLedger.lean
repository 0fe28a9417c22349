import PlotEmbedding.Proofs.Chronicle

/-!
# The ledger of hooks

Who registers a hook must release it. `Moment.registered?` and `Moment.released?` are the entries of
a ledger for one embedder, read off the chronicle: a hook is registered when the platform hands it
out, and released when the platform is asked to take it back, whatever comes of that. What has been
released and then the hook that the embedder holds is what has been registered, in order. Calls have
no entries, by `Visit.Arise.ofCall`, and so every operation has one entry at most, which
`Record.Arises.entries` sets against the states before and after it.

A history may begin with any world in which the embedder holds no hook. A name may be given to one
embedder after the other in the course of it, and each of them has a ledger of its own, which begins
with its creation, by `Platform.History.balance_of_created`.
-/

namespace PlotEmbedding

variable {ι ν σ : Type}

section Entries

variable [DecidableEq ι]

/-- The hook that the embedder is handed out at a moment. -/
def Moment.registered? (e : ι) : Moment ι → Option Hook
  | hears name _ .installHook (.returned (.ok hook)) => if name = e then some hook else none
  | _ => none

/-- The hook that the embedder gives back at a moment. -/
def Moment.released? (e : ι) : Moment ι → Option Hook
  | asks name _ (.removeHook hook) => if name = e then some hook else none
  | _ => none

/-- The hooks that the embedder is handed out, in order. -/
def registered (e : ι) (moments : List (Moment ι)) : List Hook :=
  moments.filterMap (Moment.registered? e)

/-- The hooks that the embedder gives back, in order. -/
def released (e : ι) (moments : List (Moment ι)) : List Hook :=
  moments.filterMap (Moment.released? e)

theorem registered_append (e : ι) (first later : List (Moment ι)) :
    registered e (first ++ later) = registered e first ++ registered e later :=
  List.filterMap_append

theorem released_append (e : ι) (first later : List (Moment ι)) :
    released e (first ++ later) = released e first ++ released e later :=
  List.filterMap_append

/-- A moment of a call is no entry. -/
theorem Moment.OfCall.no_entry {moment : Moment ι} (call : moment.OfCall) (e : ι) :
    moment.registered? e = none ∧ moment.released? e = none := by
  constructor
  · unfold registered?
    split
    · next part _ => cases part <;> exact call.elim
    · rfl
  · unfold released?
    split
    · next part _ => cases part <;> exact call.elim
    · rfl

/-- There are no entries while calls are dealt with. -/
theorem no_entries {moments : List (Moment ι)} (calls : ∀ moment ∈ moments, moment.OfCall) (e : ι) :
    registered e moments = [] ∧ released e moments = [] :=
  ⟨List.filterMap_eq_nil_iff.mpr fun moment hmoment => ((calls moment hmoment).no_entry e).1,
    List.filterMap_eq_nil_iff.mpr fun moment hmoment => ((calls moment hmoment).no_entry e).2⟩

/-- The hook that an act registers. -/
def Act.registered? : Act ι ν → Option Hook
  | call .installHook _ (.returned (.ok hook)) => some hook
  | _ => none

/-- The hook that an act releases. -/
def Act.released? : Act ι ν → Option Hook
  | call (.removeHook hook) _ _ => some hook
  | _ => none

/-- A request is an entry of the embedder that makes it, if of any. -/
theorem entries_of_call (e name : ι) (part : Part) (request : Request) (visits : List (Visit ι ν))
    (ending : Ending request.Answer) :
    registered e [.asks name part request, .hears name part request ending] =
        (if name = e then [Act.call request visits ending].filterMap Act.registered? else []) ∧
      released e [.asks name part request, .hears name part request ending] =
        if name = e then [Act.call request visits ending].filterMap Act.released? else [] := by
  -- Only the registering and the releasing of a hook are entries, and only the first needs an
  -- answer.
  cases request with
  | installHook =>
    refine ⟨?_, (ite_self _).symm⟩
    cases ending with
    | returned answer =>
      cases answer with
      | ok hook =>
        have asks : (Moment.asks name part .installHook).registered? e = none := rfl
        have hears : (Moment.hears name part .installHook (.returned (.ok hook))).registered? e =
            if name = e then some hook else none := rfl
        rw [registered, List.filterMap_cons_none asks, List.filterMap_cons, hears]
        by_cases own : name = e
        · rw [if_pos own, if_pos own]
          rfl
        · rw [if_neg own, if_neg own]
          rfl
      | error failure => exact (ite_self _).symm
    | unwound panic => exact (ite_self _).symm
  | removeHook hook =>
    refine ⟨(ite_self _).symm, ?_⟩
    by_cases own : name = e <;> simp [released, Moment.released?, Act.released?, own]
  | _ => exact ⟨(ite_self _).symm, (ite_self _).symm⟩

/-- What is read off the moments of acts can be read off the acts themselves, if there is nothing to
be read off calls. -/
theorem Act.Arise.filterMap_chronicle {roster : Roster ι} {acts : List (Act ι ν)} {name : ι}
    {part : Part} {f : Moment ι → Option Hook} {g : Act ι ν → Option Hook}
    (h : Act.Arise roster acts) (calls : ∀ moment : Moment ι, moment.OfCall → f moment = none)
    (report : ∀ line, g (.report line) = none)
    (call : ∀ request visits ending,
      [.asks name part request, .hears name part request ending].filterMap f =
        [.call request visits ending].filterMap g) :
    (Act.chronicle name part acts).filterMap f = acts.filterMap g := by
  induction acts with
  | nil => rfl
  | cons act rest ih =>
    cases h with
    | report later =>
      rw [List.filterMap_cons_none (report _)]
      exact ih later
    | @call _ request visits ending _ visited later =>
      -- Callbacks neither register nor release a hook, so nothing is read off what happens
      -- meanwhile.
      have meanwhile : (Visit.chronicle visits).filterMap f = [] :=
        List.filterMap_eq_nil_iff.mpr fun moment hmoment =>
          calls moment (visited.ofCall moment hmoment)
      calc (Act.chronicle name part (.call request visits ending :: rest)).filterMap f
          = [Moment.asks name part request].filterMap f ++
              ((Visit.chronicle visits).filterMap f ++
                [Moment.hears name part request ending].filterMap f) ++
              (Act.chronicle name part rest).filterMap f := by
            rw [← List.filterMap_append, ← List.filterMap_append, ← List.filterMap_append]
            rfl
        _ = [.asks name part request, .hears name part request ending].filterMap f ++
              rest.filterMap g := by
            rw [meanwhile, List.nil_append, ← List.filterMap_append, ih later]
            rfl
        _ = (.call request visits ending :: rest).filterMap g := by
            rw [call request visits ending, ← List.filterMap_append]
            rfl

/-- The entries of acts are those of the embedder that acts, whatever takes place meanwhile. -/
theorem Act.Arise.entries {roster : Roster ι} {acts : List (Act ι ν)} (h : Act.Arise roster acts)
    (e name : ι) (part : Part) :
    registered e (Act.chronicle name part acts) =
        (if name = e then acts.filterMap Act.registered? else []) ∧
      released e (Act.chronicle name part acts) =
        if name = e then acts.filterMap Act.released? else [] := by
  have call : ∀ request (visits : List (Visit ι ν)) ending, _ := entries_of_call e name part
  by_cases own : name = e
  · simp only [if_pos own] at call ⊢
    exact ⟨h.filterMap_chronicle (fun _ call => (call.no_entry e).1) (fun _ => rfl)
        fun request visits ending => (call request visits ending).1,
      h.filterMap_chronicle (fun _ call => (call.no_entry e).2) (fun _ => rfl)
        fun request visits ending => (call request visits ending).2⟩
  · simp only [if_neg own] at call ⊢
    -- Of another embedder's acts nothing is read, which is to read off nothing everywhere.
    have silent : acts.filterMap (fun _ => (none : Option Hook)) = [] :=
      List.filterMap_eq_nil_iff.mpr fun _ _ => rfl
    rw [← silent]
    exact ⟨h.filterMap_chronicle (fun _ call => (call.no_entry e).1) (fun _ => rfl)
        fun request visits ending => (call request visits ending).1,
      h.filterMap_chronicle (fun _ call => (call.no_entry e).2) (fun _ => rfl)
        fun request visits ending => (call request visits ending).2⟩

end Entries

/-! ## Operations -/

/-- What is registered and what is released for an embedder between two states of it. -/
inductive Embedder.Trades (before : Embedder) : List Hook → List Hook → Embedder → Prop where
  /-- The embedder holds the same hook as before, or none as before. -/
  | nothing {after : Embedder} : after.hook? = before.hook? → Trades before [] [] after
  /-- A hook is registered, and the embedder holds it where it held none. -/
  | registers {hook : Hook} {after : Embedder} :
      before.hook? = none → after.hook? = some hook → Trades before [hook] [] after
  /-- The hook that the embedder holds is released. -/
  | releases {hook : Hook} {after : Embedder} :
      before.hook? = some hook → after.hook? = none → Trades before [] [hook] after

namespace Embedder

/-- What is released and then held is what was held and then registered. -/
theorem Trades.balance {before after : Embedder} {registered released : List Hook}
    (h : before.Trades registered released after) :
    released ++ after.hook?.toList = before.hook?.toList ++ registered := by
  cases h with
  | nothing same => rw [same, List.append_nil, List.nil_append]
  | registers none some => rw [none, some]; rfl
  | releases some none => rw [none, some]; rfl

/-- Nothing is released but what was held. -/
theorem Trades.released_prefix {before after : Embedder} {registered released : List Hook}
    (h : before.Trades registered released after) : released <+: before.hook?.toList := by
  cases h with
  | nothing _ => exact List.nil_prefix
  | registers _ _ => exact List.nil_prefix
  | releases some _ => rw [some]; exact List.prefix_rfl

variable {e after : Embedder} {acts : List (Act ι ν)}

/-- An embedder that is uninstalled releases the hook that it holds, if any. -/
theorem trades_of_uninstall {ending : Ending Bool} (run : e.uninstall.Allows acts ending)
    (vacant : after.hook? = none) :
    e.Trades (acts.filterMap Act.registered?) (acts.filterMap Act.released?) after := by
  rcases uninstall_allows run with ⟨none, rfl, -⟩ | ⟨installation, visits, panic, some, rfl, -⟩ |
    ⟨installation, visits, answer, lines, some, rfl, -⟩
  · exact .nothing (by rw [vacant, hook?, none]; rfl)
  · -- The hook counts as released from the request on, also if the request unwinds.
    exact .releases (by rw [hook?, some]; rfl) vacant
  · have reports : ∀ f : Act ι ν → Option Hook, (∀ line, f (.report line) = .none) →
        (lines.map Act.report).filterMap f = [] := by
      intro f quiet
      rw [List.filterMap_map, List.filterMap_eq_nil_iff]
      exact fun line _ => quiet line
    have registered := reports Act.registered? fun _ => rfl
    have released := reports Act.released? fun _ => rfl
    have call : (Act.call (.removeHook installation.hook) visits (.returned answer)).released? =
        .some installation.hook := rfl
    rw [List.filterMap_cons_none rfl, registered, List.filterMap_cons_some call, released]
    exact .releases (by rw [hook?, some]; rfl) vacant

/-- An embedder that is installed holds the hook that is registered, if any. -/
theorem Installs.trades {host : Handle} {result : Except Failure InstallOutcome}
    (run : e.Installs host acts (.returned (result, after))) :
    e.Trades (acts.filterMap Act.registered?) (acts.filterMap Act.released?) after := by
  cases run with
  | already _ => exact .nothing rfl
  | null _ _ => exact .nothing rfl
  | noWindow _ _ => exact .nothing rfl
  | registered vacant _ => exact .registers (by rw [hook?, vacant]; rfl) rfl
  | failed _ _ _ => exact .nothing rfl
  | skipped _ _ _ => exact .nothing rfl

/-- Nothing is registered by an installation that unwinds. -/
theorem Installs.trades_unwound {host : Handle} {panic : String}
    (run : e.Installs host acts (.unwound panic)) :
    e.Trades (acts.filterMap Act.registered?) (acts.filterMap Act.released?) e := by
  cases run with
  | windowPanic _ _ => exact .nothing rfl
  | hookPanic _ _ => exact .nothing rfl

end Embedder

variable [DecidableEq ι]

/-- An operation has one entry at most in the ledger of an embedder, and it is about the hook that
the embedder holds before or after. -/
theorem Record.Arises.trades {roster after : Roster ι} {record : Record ι ν}
    (h : record.Arises roster after) (e : ι) :
    (roster e).Trades (registered e record.moments) (released e record.moments) (after e) := by
  -- What an embedder does itself may have an entry in its own ledger only.
  have upkeep : ∀ {name : ι} {acts : List (Act ι ν)} {roster' : Roster ι} {embedder : Embedder},
      Act.Arise roster' acts →
      (roster name).Trades (acts.filterMap Act.registered?) (acts.filterMap Act.released?)
        embedder →
      (roster e).Trades (registered e (Act.chronicle name .upkeep acts))
        (released e (Act.chronicle name .upkeep acts))
        (Function.update roster name embedder e) := by
    intro name acts roster' embedder arise trades
    obtain ⟨registered, released⟩ := arise.entries e name .upkeep
    rw [registered, released]
    by_cases own : name = e
    · subst own
      rw [if_pos rfl, if_pos rfl, Function.update_self]
      exact trades
    · rw [if_neg own, if_neg own, Function.update_of_ne (Ne.symm own)]
      exact .nothing rfl
  cases h with
  | create run arise => exact upkeep arise (Embedder.trades_of_uninstall run rfl)
  | installReturned run arise => exact upkeep arise run.trades
  | @installUnwound name _ _ _ run arise =>
    have trades := upkeep arise run.trades_unwound
    rw [Function.update_eq_self] at trades
    exact trades
  | uninstall run arise => exact upkeep arise (Embedder.trades_of_uninstall run rfl)
  | drop run arise => exact upkeep arise (Embedder.trades_of_uninstall run rfl)
  | visit arise =>
    have calls := arise.ofCall
    rw [Visit.chronicle, Visit.chronicle, List.append_nil] at calls
    obtain ⟨registered, released⟩ := no_entries calls e
    rw [Record.moments, registered, released]
    exact .nothing rfl

/-- An operation that gives a name to a new embedder leaves it new. -/
theorem Record.Arises.new_of_create {roster after : Roster ι} {e : ι} {options : Options}
    {acts : List (Act ι ν)} {ending : Ending Unit}
    (h : Record.Arises roster (.create e options acts ending) after) :
    after e = .new options := by
  cases h with
  | create _ _ => exact Function.update_self ..

/-! ## Histories -/

namespace Platform

variable {platform : Platform ι ν σ} {first world : World ι σ} {records : List (Record ι ν)} {e : ι}

/-- The ledger of an embedder is balanced between operations. -/
theorem History.balance (history : platform.History first records world)
    (fresh : (first.embedders e).installation = none) :
    released e (Record.chronicle records) ++ (world.embedders e).hook?.toList =
      registered e (Record.chronicle records) := by
  induction history with
  | begin => rw [Embedder.hook?, fresh]; rfl
  | shift state _ ih => exact ih
  | operate _ operated ih =>
    have balance := ((platform.arises_operate operated).trades e).balance
    rw [Record.chronicle_append, Record.chronicle_singleton, released_append, registered_append,
      List.append_assoc, balance, ← List.append_assoc, ih]

/-- At every moment, what the embedder has released begins what has been registered for it. -/
theorem History.released_prefix (history : platform.History first records world)
    (fresh : (first.embedders e).installation = none) {before later : List (Moment ι)}
    (cut : Record.chronicle records = before ++ later) :
    released e before <+: registered e before := by
  induction history generalizing before later with
  | begin =>
    obtain ⟨rfl, -⟩ := List.append_eq_nil_iff.mp cut.symm
    exact List.nil_prefix
  | shift state _ ih => exact ih cut
  | @operate records world _ record _ _ history operated ih =>
    rw [Record.chronicle_append, Record.chronicle_singleton] at cut
    rcases List.append_eq_append_iff.mp cut with ⟨inside, rfl, parts⟩ | ⟨rest, whole, -⟩
    · -- The cut is inside of the last operation, which releases what was held before it.
      have trades := (platform.arises_operate operated).trades e
      rw [released_append, registered_append, ← history.balance fresh, List.append_assoc,
        List.prefix_append_right_inj]
      have early : released e inside <+: released e record.moments := by
        rw [parts, released_append]
        exact List.prefix_append _ _
      exact (early.trans trades.released_prefix).trans (List.prefix_append _ _)
    · -- The cut lies before the last operation, so that it is one of the shorter history.
      exact ih whole

/-- A name that is given up, or given to a new embedder, holds no hook. -/
theorem hook_of_vacated {depth : Nat} {operation : Operation ι} {record : Record ι ν}
    {after : World ι σ} (vacated : operation = .drop e ∨ ∃ options, operation = .create e options)
    (operated : platform.operate depth operation world = some (record, after)) :
    (after.embedders e).hook? = none := by
  rcases vacated with rfl | ⟨options, rfl⟩
  · obtain ⟨run, -, heq⟩ := Option.map_eq_some_iff.mp operated
    cases heq
    rw [World.embedders_set, Function.update_self]
    rfl
  · obtain ⟨run, -, heq⟩ := Option.map_eq_some_iff.mp operated
    cases heq
    rw [World.embedders_set, Function.update_self]
    rfl

/-- An embedder that has just been created is new. -/
theorem History.new_of_created {before : List (Record ι ν)} {options : Options}
    {acts : List (Act ι ν)} {ending : Ending Unit}
    (history : platform.History first (before ++ [.create e options acts ending]) world) :
    world.embedders e = .new options := by
  generalize whole : before ++ [.create e options acts ending] = records at history
  induction history with
  | begin => exact absurd whole (List.append_ne_nil_of_right_ne_nil _ (List.cons_ne_nil _ _))
  | shift state _ ih => exact ih whole
  | operate _ operated _ =>
    have arises := platform.arises_operate operated
    obtain ⟨-, last⟩ := List.append_inj' whole rfl
    rw [← List.singleton_inj.mp last] at arises
    exact arises.new_of_create

/-- The ledger of an embedder that is created in a history is balanced from then on. -/
theorem History.balance_of_created {before later : List (Record ι ν)} {options : Options}
    {acts : List (Act ι ν)} {ending : Ending Unit}
    (history : platform.History first (before ++ .create e options acts ending :: later) world) :
    released e (Record.chronicle later) ++ (world.embedders e).hook?.toList =
      registered e (Record.chronicle later) := by
  rw [List.append_cons] at history
  obtain ⟨middle, earlier, rest⟩ := history.cut
  exact rest.balance (congrArg Embedder.installation earlier.new_of_created)

/-- An uninstall returns whether the embedder was installed, and only a panic of the release keeps
it from doing so. -/
theorem uninstall_answers {depth : Nat} {record : Record ι ν} {after : World ι σ}
    (operated : platform.operate depth (.uninstall e) world = some (record, after)) :
    ∃ acts ending, record = .uninstall e acts ending ∧
      ((world.embedders e).installation = none → acts = [] ∧ ending = .returned false) ∧
      (∀ answer, ending = .returned answer →
        (answer = true ↔ (world.embedders e).installation ≠ none)) ∧
      ∀ panic, ending = .unwound panic → ∃ hook visits, (world.embedders e).hook? = some hook ∧
        acts = [.call (.removeHook hook) visits (.unwound panic)] := by
  obtain ⟨⟨acts, ending, world'⟩, hrun, heq⟩ := Option.map_eq_some_iff.mp operated
  cases heq
  have allowed := (platform.arise_uninstall hrun).1
  refine ⟨acts, ending, rfl, ?_⟩
  -- Not installed, cut short by the release, or done.
  rcases Embedder.uninstall_allows allowed with ⟨vacant, rfl, rfl⟩ |
    ⟨installation, visits, panic, installed, rfl, rfl⟩ |
    ⟨installation, visits, answer, lines, installed, rfl, rfl⟩
  · refine ⟨fun _ => ⟨rfl, rfl⟩, ?_, nofun⟩
    rintro answer ⟨⟩
    simp [vacant]
  · refine ⟨?_, nofun, ?_⟩
    · intro vacant
      rw [vacant] at installed
      exact nomatch installed
    · rintro _ ⟨⟩
      exact ⟨installation.hook, visits, by rw [Embedder.hook?, installed]; rfl, rfl⟩
  · refine ⟨?_, ?_, nofun⟩
    · intro vacant
      rw [vacant] at installed
      exact nomatch installed
    · rintro answer ⟨⟩
      simp [installed]

/-- Whatever fails or panics, the hooks that an embedder has released and then the one it holds are
the hooks that were registered for it, in order, also if they are counted from its creation only.
None is released before it was registered, and none is left once the embedder is gone. -/
theorem History.hooks_accounted (history : platform.History first records world)
    (fresh : (first.embedders e).installation = none) :
    released e (Record.chronicle records) ++ (world.embedders e).hook?.toList =
        registered e (Record.chronicle records) ∧
      (∀ before options acts ending later,
        records = before ++ .create e options acts ending :: later →
        released e (Record.chronicle later) ++ (world.embedders e).hook?.toList =
          registered e (Record.chronicle later)) ∧
      (∀ before later, Record.chronicle records = before ++ later →
        released e before <+: registered e before) ∧
      (∀ depth operation record after,
        (operation = .drop e ∨ ∃ options, operation = .create e options) →
        platform.operate depth operation world = some (record, after) →
        (after.embedders e).hook? = none ∧ released e (Record.chronicle (records ++ [record])) =
          registered e (Record.chronicle (records ++ [record]))) ∧
      ∀ depth record after, platform.operate depth (.uninstall e) world = some (record, after) →
        ∃ acts ending, record = .uninstall e acts ending ∧
          ((world.embedders e).installation = none → acts = [] ∧ ending = .returned false) ∧
          (∀ answer, ending = .returned answer →
            (answer = true ↔ (world.embedders e).installation ≠ none)) ∧
          ∀ panic, ending = .unwound panic → ∃ hook visits,
            (world.embedders e).hook? = some hook ∧
            acts = [.call (.removeHook hook) visits (.unwound panic)] := by
  refine ⟨history.balance fresh, ?_, fun before later => history.released_prefix fresh, ?_, ?_⟩
  · rintro before options acts ending later rfl
    exact history.balance_of_created
  · intro depth operation record after vacated operated
    have none := hook_of_vacated vacated operated
    have balance := (history.operate operated).balance fresh
    rw [none] at balance
    exact ⟨none, (List.append_nil _).symm.trans balance⟩
  · exact fun depth record after => uninstall_answers

end Platform

/-- On the crowded desktop every release panics, and still no hook is left or released twice. -/
theorem Desktop.hooks_accounted_of_crowded : ∃ records world,
    platform.operateAll 1 [.install 2 ⟨1⟩, .uninstall 2, .install 2 ⟨1⟩, .uninstall 2, .drop 2]
      crowded = some (records, world) ∧
    registered 2 (Record.chronicle records) = [⟨1⟩, ⟨2⟩] ∧
    released 2 (Record.chronicle records) ++ (world.embedders 2).hook?.toList = [⟨1⟩, ⟨2⟩] := by
  have ends : ((platform.operateAll 1 [.install 2 ⟨1⟩, .uninstall 2, .install 2 ⟨1⟩, .uninstall 2,
      .drop 2] crowded).map fun done => registered 2 (Record.chronicle done.1)) =
      some [⟨1⟩, ⟨2⟩] := by decide +kernel
  obtain ⟨⟨records, world⟩, performed, hooks⟩ := Option.map_eq_some_iff.mp ends
  -- What is registered is computed, and what is released follows from the ledger.
  have hooks : registered 2 (Record.chronicle records) = [⟨1⟩, ⟨2⟩] := hooks
  have history : platform.History crowded records world :=
    Platform.History.begin.operateAll performed
  have fresh : (crowded.embedders 2).installation = none := rfl
  have ledger := (Platform.History.hooks_accounted history fresh).1
  exact ⟨records, world, performed, hooks, ledger.trans hooks⟩

end PlotEmbedding
