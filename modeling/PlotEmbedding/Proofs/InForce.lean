import PlotEmbedding.Proofs.HookLedger
import PlotEmbedding.Proofs.Response

/-!
# The installation in force

Between operations nothing is left of what went on but what the records tell. `InForce` says by the
records alone which installation of an embedder counts: the one that the last successful install
brought about, unless an operation has begun since that ends it. `Record.Leads` lists what one
operation makes of one embedder, and by `Platform.History.installation_iff` the installation that an
embedder has after a history is the one in force.

An operation that ends an installation does so before anything else, so the installation in force
during an operation is known from the records before it as well. `Moment.Obeys` is what follows for
each request: those about windows name the host that is in force, and an event is handed on with the
hook that is in force.
-/

namespace PlotEmbedding

variable {ι ν σ : Type}

namespace Record

/-- The embedder that an operation gives up, or replaces by a new one. -/
def replaced? : Record ι ν → Option ι
  | create e _ _ _ => some e
  | install _ _ _ _ => none
  | uninstall _ _ _ => none
  | drop e _ _ => some e
  | visit _ => none

/-- The embedder that has no installation from the beginning of an operation on. -/
def vacated? : Record ι ν → Option ι
  | create e _ _ _ => some e
  | install _ _ _ _ => none
  | uninstall e _ _ => some e
  | drop e _ _ => some e
  | visit _ => none

/-- The embedder that an operation has installed. -/
def installed? : Record ι ν → Option ι
  | install e _ _ (.returned (.ok .installed)) => some e
  | _ => none

end Record

/-- After these records, the installation of the embedder is in force: the last successful install
had this host and got this hook, and no operation has ended it since, not even one that failed or
unwound. -/
def InForce (e : ι) (installation : Installation) (records : List (Record ι ν)) : Prop :=
  ∃ before acts later,
    records =
      before ++ .install e installation.host acts (.returned (.ok .installed)) :: later ∧
    acts.filterMap Act.registered? = [installation.hook] ∧
    ∀ record ∈ later, record.vacated? ≠ some e ∧ record.installed? ≠ some e

/-- No installation is in force at the beginning. -/
theorem not_inForce_nil (e : ι) (installation : Installation) :
    ¬ InForce e installation ([] : List (Record ι ν)) := by
  rintro ⟨before, acts, later, whole, -⟩
  exact List.append_ne_nil_of_right_ne_nil _ (List.cons_ne_nil _ _) whole.symm

/-- One more operation brings the installation about, or leaves one in force. -/
theorem inForce_concat {e : ι} {installation : Installation} {records : List (Record ι ν)}
    {record : Record ι ν} :
    InForce e installation (records ++ [record]) ↔
      (∃ acts, record = .install e installation.host acts (.returned (.ok .installed)) ∧
        acts.filterMap Act.registered? = [installation.hook]) ∨
      (InForce e installation records ∧ record.vacated? ≠ some e ∧ record.installed? ≠ some e) := by
  constructor
  · rintro ⟨before, acts, later, whole, hook, since⟩
    -- The installation is the last record, or the last record is one of those since.
    rcases List.eq_nil_or_concat later with rfl | ⟨later, last, rfl⟩
    · obtain ⟨-, last⟩ := List.append_inj' whole rfl
      exact .inl ⟨acts, List.singleton_inj.mp last, hook⟩
    · rw [List.concat_eq_append, ← List.cons_append, ← List.append_assoc] at whole
      obtain ⟨rfl, last⟩ := List.append_inj' whole rfl
      obtain rfl := List.singleton_inj.mp last
      rw [List.concat_eq_append, List.forall_mem_append, List.forall_mem_singleton] at since
      exact .inr ⟨⟨before, acts, later, rfl, hook, since.1⟩, since.2⟩
  · rintro (⟨acts, rfl, hook⟩ | ⟨⟨before, acts, later, rfl, hook, since⟩, kept⟩)
    · exact ⟨records, acts, [], rfl, hook, List.forall_mem_nil _⟩
    · refine ⟨before, acts, later ++ [record], by rw [List.append_assoc]; rfl, hook, ?_⟩
      rw [List.forall_mem_append, List.forall_mem_singleton]
      exact ⟨since, kept⟩

/-! ## One operation -/

/-- An installation is its host and its hook. -/
theorem Installation.eq_of_parts : {i j : Installation} → i.host = j.host → i.hook = j.hook → i = j
  | ⟨_, _⟩, ⟨_, _⟩, rfl, rfl => rfl

/-- An embedder that is neither installed nor busy is like new. -/
theorem Embedder.eq_new : {e : Embedder} → {options : Options} → e.options = options →
    e.installation = none → e.processing = false → e = .new options
  | ⟨_, _, _⟩, _, rfl, rfl, rfl => rfl

/-- What an operation makes of an embedder that was in the first state. -/
inductive Record.Leads (e : ι) (before : Embedder) : Record ι ν → Embedder → Prop where
  /-- The name stands for a new embedder. -/
  | created {options : Options} {acts : List (Act ι ν)} {ending : Ending Unit} :
      Leads e before (.create e options acts ending) (.new options)
  /-- The name is free. -/
  | dropped {acts : List (Act ι ν)} {ending : Ending Unit} :
      Leads e before (.drop e acts ending) (.new {})
  /-- The installation is gone, however the operation ended. -/
  | uninstalled {acts : List (Act ι ν)} {ending : Ending Bool} :
      Leads e before (.uninstall e acts ending) { before with installation := none }
  /-- The embedder is installed, which it was not, with a host that is not the null handle. -/
  | installed {host : Handle} {hook : Hook} {acts : List (Act ι ν)} :
      before.installation = none → host ≠ .null → acts.filterMap Act.registered? = [hook] →
      Leads e before (.install e host acts (.returned (.ok .installed)))
        { before with installation := some ⟨host, hook⟩ }
  /-- The embedder is as it was. -/
  | kept {record : Record ι ν} : record.vacated? ≠ some e → record.installed? ≠ some e →
      Leads e before record before

/-- An installation that succeeds is the one that the embedder then has, and else the embedder is
unchanged. -/
theorem Embedder.Installs.leads {e : ι} {before after : Embedder} {host : Handle}
    {acts : List (Act ι ν)} {result : Except Failure InstallOutcome}
    (h : before.Installs host acts (.returned (result, after))) :
    Record.Leads e before (.install e host acts (.returned result)) after := by
  cases h with
  | already _ => exact .kept nofun nofun
  | null _ _ => exact .kept nofun nofun
  | noWindow _ _ => exact .kept nofun nofun
  | @registered _ _ hook vacant valid =>
    have host : host ≠ .null := by
      rintro rfl
      exact nomatch valid
    exact .installed vacant host rfl
  | failed _ _ _ => exact .kept nofun nofun
  | skipped _ _ _ => exact .kept nofun nofun

variable [DecidableEq ι]

/-- What an operation makes of each embedder. -/
theorem Record.Arises.leads {roster after : Roster ι} {record : Record ι ν}
    (h : record.Arises roster after) (e : ι) : record.Leads e (roster e) (after e) := by
  -- An operation on one embedder leaves all others alone.
  have others : ∀ {name : ι} {embedder : Embedder}, record.vacated? ≠ some e →
      record.installed? ≠ some e → e ≠ name →
      record.Leads e (roster e) (Function.update roster name embedder e) := by
    intro name embedder vacated installed other
    rw [Function.update_of_ne other]
    exact .kept vacated installed
  cases h with
  | @create name _ _ _ _ _ =>
    by_cases own : e = name
    · subst own
      rw [Function.update_self]
      exact .created
    · exact others (fun h => own (Option.some.inj h).symm) (Option.some_ne_none _).symm own
  | @installReturned name _ _ result _ installs _ =>
    by_cases own : e = name
    · subst own
      rw [Function.update_self]
      exact installs.leads
    · -- A record tells whom it has installed only if it succeeded, and then it is the one named in
      -- it.
      refine others (Option.some_ne_none _).symm (fun h => own ?_) own
      unfold Record.installed? at h
      split at h
      · next heq =>
        cases heq
        exact (Option.some.inj h).symm
      · cases h
  | installUnwound _ _ => exact .kept (Option.some_ne_none _).symm (Option.some_ne_none _).symm
  | @uninstall name _ _ _ _ =>
    by_cases own : e = name
    · subst own
      rw [Roster.vacant, Function.update_self]
      exact .uninstalled
    · exact others (fun h => own (Option.some.inj h).symm) (Option.some_ne_none _).symm own
  | @drop name _ _ _ _ =>
    by_cases own : e = name
    · subst own
      rw [Function.update_self]
      exact .dropped
    · exact others (fun h => own (Option.some.inj h).symm) (Option.some_ne_none _).symm own
  | visit _ => exact .kept (Option.some_ne_none _).symm (Option.some_ne_none _).symm

namespace Record.Leads

variable {e : ι} {before after : Embedder} {record : Record ι ν}

omit [DecidableEq ι] in
/-- The flag stays clear. -/
theorem idle (h : record.Leads e before after) (idle : before.processing = false) :
    after.processing = false := by
  cases h <;> first | rfl | exact idle

omit [DecidableEq ι] in
/-- Nothing but a replacement changes the options. -/
theorem options (h : record.Leads e before after) (own : record.replaced? ≠ some e) :
    after.options = before.options := by
  cases h with
  | created => exact absurd rfl own
  | dropped => exact absurd rfl own
  | uninstalled => rfl
  | installed _ _ _ => rfl
  | kept _ _ => rfl

omit [DecidableEq ι] in
/-- The host is never the null handle. -/
theorem host_ne_null (h : record.Leads e before after)
    (valid : ∀ installation, before.installation = some installation → installation.host ≠ .null) :
    ∀ installation, after.installation = some installation → installation.host ≠ .null := by
  cases h with
  | created => exact nofun
  | dropped => exact nofun
  | uninstalled => exact nofun
  | installed _ host _ =>
    rintro _ ⟨⟩
    exact host
  | kept _ _ => exact valid

omit [DecidableEq ι] in
/-- An installation stays unless the operation ends it. -/
theorem installation {installation : Installation} (h : record.Leads e before after)
    (kept : record.vacated? ≠ some e) (installed : before.installation = some installation) :
    after.installation = some installation := by
  cases h with
  | created => exact absurd rfl kept
  | dropped => exact absurd rfl kept
  | uninstalled => exact absurd rfl kept
  | installed vacant _ _ => exact nomatch vacant.symm.trans installed
  | kept _ _ => exact installed

omit [DecidableEq ι] in
/-- The installation in force stays the one that the embedder has. -/
theorem inForce (h : record.Leads e before after) {records : List (Record ι ν)}
    (same : ∀ installation, before.installation = some installation ↔
      InForce e installation records) (installation : Installation) :
    after.installation = some installation ↔ InForce e installation (records ++ [record]) := by
  rw [inForce_concat]
  cases h with
  | created => simp [Record.vacated?, Embedder.new]
  | dropped => simp [Record.vacated?, Embedder.new]
  | uninstalled => simp [Record.vacated?]
  | @installed host hook acts vacant _ registered =>
    constructor
    · intro has
      obtain rfl : ⟨host, hook⟩ = installation := Option.some.inj has
      exact .inl ⟨acts, rfl, registered⟩
    · -- The record is the same one, and so it tells the same host and the same hook.
      rintro (⟨acts', heq, registered'⟩ | ⟨-, -, other⟩)
      · obtain ⟨-, same, rfl, -⟩ := Record.install.inj heq
        have hooks : [hook] = [installation.hook] := registered.symm.trans registered'
        exact congrArg some (Installation.eq_of_parts same (List.singleton_inj.mp hooks))
      · exact absurd rfl other
  | kept vacated installed =>
    rw [same]
    constructor
    · exact fun inForce => .inr ⟨inForce, vacated, installed⟩
    · rintro (⟨acts, rfl, -⟩ | ⟨inForce, -, -⟩)
      · exact absurd rfl installed
      · exact inForce

end Record.Leads

/-! ## What is asked while an installation is in force -/

/-- The request names this host wherever it names a host. -/
def Request.NamesHost (host : Handle) : Request → Prop
  | clientArea win => win = host
  | mutate (.setParent _ target) => target = host
  | mutate (.postMessage win _) => win = host
  | _ => True

/-- The request fits an embedder with this installation: one about windows takes an installation and
names its host, and an event is handed on with its hook. -/
def Request.Obeys (held : Option Installation) (request : Request) : Prop :=
  (request.OnWindow → ∃ installation, held = some installation ∧
    request.NamesHost installation.host) ∧
  ∀ hook event, request = .forward hook event → hook = held.map Installation.hook

/-- The request that is made at the moment, if any, fits the embedder that makes it. -/
def Moment.Obeys (held : ι → Option Installation) : Moment ι → Prop
  | asks e _ request => request.Obeys (held e)
  | begins _ _ => True
  | hears _ _ _ _ => True
  | looks _ _ => True
  | ends _ _ => True

namespace Embedder

omit [DecidableEq ι]

variable {e : Embedder} {acts : List (Act ι ν)}

/-- What an embedder asks for while it handles an event fits it. -/
theorem Handles.obeys {event : Event} {ending : Ending ActivationOutcome}
    (h : e.Handles event acts ending) : ∀ r ∈ Act.requests acts, r.Obeys e.installation := by
  cases h with
  | other _ => exact nofun
  | refused _ _ => exact nofun
  | @responds win _ _ _ _ run =>
    intro r hr
    obtain ⟨installation, size, installed, step⟩ := (responds_of_allows run).mem_steps r hr
    -- Every step is about the host of this installation, whatever size it is told.
    have names : r.NamesHost installation.host ∧ r.OnWindow := by
      have all : ∀ s ∈ .className win classNameCapacity :: .parent win ::
          steps e.options installation.host win size,
          s.NamesHost installation.host ∧ s.OnWindow := by
        simp [steps, Request.NamesHost, Request.OnWindow]
      exact all r step
    refine ⟨fun _ => ⟨installation, installed, names.1⟩, ?_⟩
    rintro hook event rfl
    exact names.2.elim

/-- The request to hand an event on fits the embedder that makes it. -/
theorem HandsOn.obeys {event : Event} {outcome : Ending ActivationOutcome} {ending : Ending Int64}
    (h : e.HandsOn event outcome acts ending) :
    ∀ r ∈ Act.requests acts, r.Obeys e.installation := by
  cases h with
  | unwound panic => exact nofun
  | returned run =>
    obtain ⟨lines, visits, rfl⟩ := handOn_allows run
    intro r hr
    rw [Act.requests_append, Act.requests_reports] at hr
    obtain rfl : r = .forward e.hook? event := List.mem_singleton.mp hr
    refine ⟨False.elim, ?_⟩
    rintro hook event ⟨⟩
    rfl

end Embedder

/-- A request that installing and uninstalling take. -/
def Request.OfUpkeep : Request → Prop
  | isWindow _ => True
  | installHook => True
  | removeHook _ => True
  | _ => False

/-- Installing and uninstalling do not depend on what is in force. -/
theorem Request.OfUpkeep.obeys {r : Request} (h : r.OfUpkeep) (held : Option Installation) :
    r.Obeys held := by
  cases r with
  | isWindow win => exact ⟨False.elim, nofun⟩
  | installHook => exact ⟨False.elim, nofun⟩
  | removeHook hook => exact ⟨False.elim, nofun⟩
  | _ => exact h.elim

namespace Embedder

omit [DecidableEq ι]

variable {e : Embedder} {acts : List (Act ι ν)}

theorem Installs.ofUpkeep {host : Handle}
    {ending : Ending (Except Failure InstallOutcome × Embedder)}
    (h : e.Installs host acts ending) : ∀ r ∈ Act.requests acts, r.OfUpkeep := by
  cases h <;> simp [Act.requests, Request.OfUpkeep]

theorem ofUpkeep_of_uninstall {ending : Ending Bool} (run : e.uninstall.Allows acts ending) :
    ∀ r ∈ Act.requests acts, r.OfUpkeep := by
  rcases uninstall_allows run with ⟨-, rfl, -⟩ | ⟨_, _, _, -, rfl, -⟩ | ⟨_, _, _, _, -, rfl, -⟩ <;>
    simp [Act.requests, Request.OfUpkeep]

end Embedder

/-- While embedders are in states with these installations, everything fits them. -/
theorem covers_obeys (held : ι → Option Installation) :
    Covers ν (fun roster : Roster ι => ∀ e, (roster e).installation = held e)
      (Moment.Obeys held) where
  busy {roster} e same name := (roster.installation_busy e name).trans (same name)
  begins _ _ _ := trivial
  looks _ _ := trivial
  handles {roster e event acts ending} same handles := by
    have own := handles.obeys
    rw [same e] at own
    exact ⟨fun r hr => ⟨own r hr, fun _ => trivial⟩, trivial⟩
  handsOn {roster e event outcome acts ending} same handsOn := by
    have own := handsOn.obeys
    rw [same e] at own
    exact fun r hr => ⟨own r hr, fun _ => trivial⟩

/-- The installation that an embedder has during an operation. -/
def Record.held (record : Record ι ν) (roster : Roster ι) (e : ι) : Option Installation :=
  if record.vacated? = some e then none else (roster e).installation

/-- The embedder that an operation installs or uninstalls, and what it does meanwhile. -/
def Record.upkeep? : Record ι ν → Option (ι × List (Act ι ν))
  | create e _ acts _ => some (e, acts)
  | install e _ acts _ => some (e, acts)
  | uninstall e acts _ => some (e, acts)
  | drop e acts _ => some (e, acts)
  | visit _ => none

omit [DecidableEq ι] in
theorem Record.moments_of_upkeep {record : Record ι ν} {e : ι} {acts : List (Act ι ν)}
    (h : record.upkeep? = some (e, acts)) : record.moments = Act.chronicle e .upkeep acts := by
  cases record <;> cases h <;> rfl

/-- An operation installs or uninstalls an embedder, or it is a visit. An installation that it ends
is taken away before the first request is made, and nothing else is changed until the last. -/
theorem Record.Arises.upkeep_or_visit {roster after : Roster ι} {record : Record ι ν}
    (h : record.Arises roster after) :
    (∃ name acts, ∃ between : Roster ι, record.upkeep? = some (name, acts) ∧
      Act.Arise between acts ∧
      (∀ e, record.vacated? = some e → (between e).installation = none) ∧
      (∀ e, record.vacated? ≠ some e → between e = roster e) ∧
      ∀ r ∈ Act.requests acts, r.OfUpkeep) ∨
    ∃ visit, record = .visit visit ∧ Visit.Arise roster [visit] := by
  -- Being created, dropped or uninstalled takes the installation away before anything is asked for.
  have gone : ∀ {name e : ι}, some name = some e → (roster.vacant name e).installation = none := by
    rintro name _ ⟨⟩
    rw [Roster.vacant, Function.update_self]
  have kept : ∀ {name e : ι}, some name ≠ some e → roster.vacant name e = roster e :=
    fun other => Function.update_of_ne (fun same => other (congrArg some same.symm)) ..
  have spared : ∀ e : ι, none = some e → (roster e).installation = none :=
    fun e vacated => absurd vacated (Option.some_ne_none e).symm
  cases h with
  | create run arise =>
    exact .inl ⟨_, _, _, rfl, arise, fun _ => gone, fun _ => kept,
      Embedder.ofUpkeep_of_uninstall run⟩
  | installReturned installs arise =>
    exact .inl ⟨_, _, _, rfl, arise, spared, fun _ _ => rfl, installs.ofUpkeep⟩
  | installUnwound installs arise =>
    exact .inl ⟨_, _, _, rfl, arise, spared, fun _ _ => rfl, installs.ofUpkeep⟩
  | uninstall run arise =>
    exact .inl ⟨_, _, _, rfl, arise, fun _ => gone, fun _ => kept,
      Embedder.ofUpkeep_of_uninstall run⟩
  | drop run arise =>
    exact .inl ⟨_, _, _, rfl, arise, fun _ => gone, fun _ => kept,
      Embedder.ofUpkeep_of_uninstall run⟩
  | visit arise => exact .inr ⟨_, rfl, arise⟩

/-- Everything in an operation fits the installations that embedders have during it. -/
theorem Record.Arises.obeys {roster after : Roster ι} {record : Record ι ν}
    (h : record.Arises roster after) :
    ∀ moment ∈ record.moments, moment.Obeys (record.held roster) := by
  rcases h.upkeep_or_visit with
    ⟨name, acts, between, upkeep, arise, gone, kept, own⟩ | ⟨visit, rfl, arise⟩
  · have same : ∀ e, (between e).installation = record.held roster e := by
      intro e
      rw [Record.held]
      split
      · next vacated => exact gone e vacated
      · next stays => rw [kept e stays]
    rw [Record.moments_of_upkeep upkeep]
    exact arise.forall_moment (covers_obeys _) same
      fun r hr => ⟨(own r hr).obeys _, fun _ => trivial⟩
  · have obeys := arise.forall_moment (covers_obeys fun e => (roster e).installation) fun _ => rfl
    rwa [Visit.chronicle_singleton] at obeys

/-- A request about windows is made while an installation is in force that the operation does not
end, and names its host. An event is handed on with the hook of such an installation, if there is
one. -/
theorem Record.Arises.asks_in_force {roster after : Roster ι} {record : Record ι ν}
    {records : List (Record ι ν)} {e : ι} {part : Part} {request : Request}
    (h : record.Arises roster after)
    (same : ∀ installation, (roster e).installation = some installation ↔
      InForce e installation records)
    (asks : .asks e part request ∈ record.moments) :
    (request.OnWindow → ∃ installation, InForce e installation records ∧
      record.vacated? ≠ some e ∧ request.NamesHost installation.host) ∧
    ∀ hook event, request = .forward hook event → ∀ k, hook = some k ↔
      ∃ installation, InForce e installation records ∧ record.vacated? ≠ some e ∧
        installation.hook = k := by
  have obeys : request.Obeys (record.held roster e) := h.obeys _ asks
  -- What an embedder holds during the operation is in force before it and not ended by it.
  have held : ∀ installation, record.held roster e = some installation ↔
      InForce e installation records ∧ record.vacated? ≠ some e := by
    intro installation
    rw [← same, Record.held]
    by_cases vacated : record.vacated? = some e
    · rw [if_pos vacated]
      exact ⟨nofun, fun h => absurd vacated h.2⟩
    · rw [if_neg vacated]
      exact ⟨fun h => ⟨h, vacated⟩, And.left⟩
  refine ⟨fun onWindow => ?_, fun hook event forward k => ?_⟩
  · obtain ⟨installation, has, names⟩ := obeys.1 onWindow
    obtain ⟨inForce, kept⟩ := (held installation).mp has
    exact ⟨installation, inForce, kept, names⟩
  · rw [obeys.2 hook event forward, Option.map_eq_some_iff]
    simp only [held, and_assoc]

/-! ## Histories -/

namespace Platform

variable {platform : Platform ι ν σ} {first world : World ι σ} {records : List (Record ι ν)} {e : ι}

/-- What every operation makes of an embedder, made of it once more, holds after a history. -/
theorem History.leads {I : List (Record ι ν) → Embedder → Prop}
    (history : platform.History first records world) (start : I [] (first.embedders e))
    (step : ∀ {records : List (Record ι ν)} {record : Record ι ν} {before after : Embedder},
      record.Leads e before after → I records before → I (records ++ [record]) after) :
    I records (world.embedders e) := by
  induction history with
  | begin => exact start
  | shift state _ ih => exact ih
  | operate _ operated ih => exact step ((platform.arises_operate operated).leads e) ih

/-- The installation that an embedder has after a history is the one in force. -/
theorem History.installation_iff (history : platform.History first records world)
    (vacant : (first.embedders e).installation = none) (installation : Installation) :
    (world.embedders e).installation = some installation ↔ InForce e installation records := by
  revert installation
  refine history.leads
    (I := fun records embedder => ∀ installation,
      embedder.installation = some installation ↔ InForce e installation records) ?_
    fun leads same => leads.inForce same
  intro installation
  rw [vacant]
  exact ⟨nofun, fun inForce => absurd inForce (not_inForce_nil e installation)⟩

/-- Between operations, the state of an embedder is determined by its options and by the records
since its creation: the flag is clear, and the installation is the one in force, the host of which
is not the null handle. So an embedder for which none is in force is like new. During the next
operation, requests about windows and for handing events on are made as the installation in force
then has it: an operation that ends an installation leaves none in force from its beginning on. -/
theorem History.determined {before later : List (Record ι ν)} {options : Options}
    {acts : List (Act ι ν)} {ending : Ending Unit}
    (history : platform.History first (before ++ .create e options acts ending :: later) world)
    (lives : ∀ record ∈ later, record.replaced? ≠ some e) :
    (world.embedders e).options = options ∧ (world.embedders e).processing = false ∧
    (∀ installation, (world.embedders e).installation = some installation ↔
      InForce e installation later) ∧
    (∀ installation, InForce e installation later → installation.host ≠ .null) ∧
    ((∀ installation, ¬ InForce e installation later) → world.embedders e = .new options) ∧
    ∀ depth operation record after, platform.operate depth operation world = some (record, after) →
      ∀ part request, .asks e part request ∈ record.moments →
        (request.OnWindow → ∃ installation, InForce e installation later ∧
          record.vacated? ≠ some e ∧ request.NamesHost installation.host) ∧
        ∀ hook event, request = .forward hook event → ∀ k, hook = some k ↔
          ∃ installation, InForce e installation later ∧ record.vacated? ≠ some e ∧
            installation.hook = k := by
  rw [List.append_cons] at history
  obtain ⟨middle, earlier, rest⟩ := history.cut
  have new := earlier.new_of_created
  have opts : (world.embedders e).options = options := by
    -- The options are those of the creation until the embedder is replaced, so the invariant says
    -- so.
    refine rest.leads (I := fun records embedder =>
      (∀ record ∈ records, record.replaced? ≠ some e) → embedder.options = options)
      (fun _ => by rw [new]; rfl) (fun leads same lives => ?_) lives
    rw [List.forall_mem_append, List.forall_mem_singleton] at lives
    rw [leads.options lives.2, same lives.1]
  have clear : (world.embedders e).processing = false :=
    rest.leads (I := fun _ embedder => embedder.processing = false) (by rw [new]; rfl)
      fun leads => leads.idle
  have inForce := rest.installation_iff (congrArg Embedder.installation new)
  have valid := rest.leads (e := e)
    (I := fun _ embedder => ∀ installation, embedder.installation = some installation →
      installation.host ≠ .null) (by rw [new]; exact nofun) fun leads => leads.host_ne_null
  refine ⟨opts, clear, inForce, fun installation h => valid _ ((inForce _).mpr h), ?_, ?_⟩
  · -- Nothing in force leaves no installation, and with the clear flag that is a new embedder.
    intro vacant
    have none : (world.embedders e).installation = none :=
      Option.eq_none_iff_forall_ne_some.mpr fun i h => vacant i ((inForce i).mp h)
    exact Embedder.eq_new opts none clear
  · intro depth operation record after operated part request asks
    exact (platform.arises_operate operated).asks_in_force inForce asks

end Platform

/-- The crowded desktop with one embedder more, which is new. -/
def Desktop.joined : World Nat (Desktop Nat) :=
  (crowded.set 2 { crowded.embedders 2 with installation := none }).set 2 (.new {})

/-- On the crowded desktop the release of the first hook panics, and all the same the installation
that follows is the one in force. -/
theorem Desktop.determined_of_crowded : ∃ later world,
    platform.operate 1 (.create 2 {}) crowded = some (.create 2 {} [] (.returned ()), joined) ∧
    platform.operateAll 1 [.install 2 ⟨1⟩, .uninstall 2, .install 2 ⟨1⟩] joined =
      some (later, world) ∧
    (∀ record ∈ later, record.replaced? ≠ some 2) ∧
    InForce 2 ⟨⟨1⟩, ⟨2⟩⟩ later := by
  have ends : ((platform.operateAll 1 [.install 2 ⟨1⟩, .uninstall 2, .install 2 ⟨1⟩] joined).map
      fun done => (decide (∀ record ∈ done.1, record.replaced? ≠ some 2),
        (done.2.embedders 2).installation)) = some (true, some ⟨⟨1⟩, ⟨2⟩⟩) := by decide +kernel
  obtain ⟨⟨later, world⟩, performed, outcome⟩ := Option.map_eq_some_iff.mp ends
  obtain ⟨lives, installed⟩ := Prod.mk.inj outcome
  have lives : ∀ record ∈ later, record.replaced? ≠ some 2 := of_decide_eq_true lives
  have created : platform.operate 1 (.create 2 {}) crowded =
      some (.create 2 {} [] (.returned ()), joined) := rfl
  have history : platform.History crowded ([] ++ .create 2 {} [] (.returned ()) :: later) world :=
    (Platform.History.begin.operate created).operateAll performed
  obtain ⟨-, -, inForce, -⟩ := Platform.History.determined history lives
  exact ⟨later, world, created, performed, lives, (inForce _).mp installed⟩

end PlotEmbedding
