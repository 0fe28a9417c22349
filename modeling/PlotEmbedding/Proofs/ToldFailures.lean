import PlotEmbedding.Proofs.Course

/-!
# What is told of failures

A platform may refuse anything that it is asked for, and an embedder goes on all the same. What is
left of a failure is a report. `Act.failures` lists the failures among the answers that an embedder
gets, `Act.told` those that its reports tell, and the two lists are compared entry by entry: each
failure is told once, at its place, with the request that it was the answer to.

There are two exceptions. The failure of a strict installation is the error that is returned, and of
a failed question about a parent nothing is said at all. `Act.Accounted` says of acts that the
second is the only one, and `Program.Candid` says so of all runs of a program. `Record.deeds` lists
what embedders do in the course of an operation, at any depth of nesting, and
`Platform.failures_told` says of every entry which of the two exceptions it can come to.
-/

namespace PlotEmbedding

variable {ι ν σ α β : Type}

/-! ## Reports of failures -/

namespace Report

/-- The request that failed by what the report says, and the failure. -/
def tells? : Report → Option (Request × Failure)
  | registrationFailed failure => some (.installHook, failure)
  | removalFailed hook failure => some (.removeHook hook, failure)
  | classUnknown win failure => some (.className win classNameCapacity, failure)
  | stepFailed step failure => some (.mutate step, failure)
  | areaUnknown host failure => some (.clientArea host, failure)
  | _ => none

/-- The wording of the report has the wording of the failure in it. -/
def Mentions (line : Report) (failure : Failure) : Prop :=
  failure.message.toList <:+: line.message.toList

instance (line : Report) (failure : Failure) : Decidable (line.Mentions failure) :=
  inferInstanceAs (Decidable (_ <:+: _))

/-- A report that tells a failure has its wording in it, and is there for debugging or a warning. -/
theorem mentions_of_tells {line : Report} {r : Request} {failure : Failure}
    (h : line.tells? = some (r, failure)) :
    line.Mentions failure ∧ (line.level = .debug ∨ line.level = .warn) := by
  have last : ∀ before : String,
      failure.message.toList <:+: (before ++ failure.message).toList := by
    intro before
    rw [String.toList_append]
    exact (List.suffix_append _ _).isInfix
  cases line with
  | registrationFailed _ =>
    cases h
    exact ⟨last _, .inr rfl⟩
  | removalFailed _ _ =>
    cases h
    exact ⟨last _, .inr rfl⟩
  | classUnknown _ _ =>
    cases h
    exact ⟨last _, .inl rfl⟩
  | stepFailed _ _ =>
    cases h
    exact ⟨last _, .inl rfl⟩
  | areaUnknown _ _ =>
    cases h
    exact ⟨last _, .inl rfl⟩
  | _ => exact nomatch h

end Report

/-! ## Accounts of failures -/

namespace Act

/-- The failure that is the answer, and the request that failed. -/
def failure? : Act ι ν → Option (Request × Failure)
  | .call r _ (.returned answer) => (r.failure? answer).map (r, ·)
  | _ => none

/-- The report that is made. -/
def line? : Act ι ν → Option Report
  | .report line => some line
  | .call _ _ _ => none

/-- The failure that is reported, and the request that failed. -/
def tells? (act : Act ι ν) : Option (Request × Failure) := act.line?.bind Report.tells?

/-- The requests among the acts that failed, in order, and their failures. -/
def failures (acts : List (Act ι ν)) : List (Request × Failure) := acts.filterMap failure?

/-- The failures that are reported among the acts, in order, and the requests that failed. -/
def told (acts : List (Act ι ν)) : List (Request × Failure) := acts.filterMap tells?

/-- All failures but those of questions about parents are reported, and nothing else is reported as
a failure. -/
def Accounted (acts : List (Act ι ν)) : Prop :=
  (failures acts).filter (·.1.kind ≠ .parent) = told acts

/-- Acts in a row are accounted for if both parts are. -/
theorem Accounted.append {first later : List (Act ι ν)} (hfirst : Accounted first)
    (hlater : Accounted later) : Accounted (first ++ later) := by
  unfold Accounted failures told at hfirst hlater ⊢
  rw [List.filterMap_append, List.filterMap_append, List.filter_append, hfirst, hlater]

/-- A report that tells no failure is in order. -/
theorem accounted_report {line : Report} (quiet : line.tells? = none) :
    Accounted ([.report line] : List (Act ι ν)) := by
  simp [Accounted, failures, told, List.filterMap_cons, failure?, tells?, line?, quiet]

/-- So is a request that does not fail, and a question about a parent in any case. -/
theorem accounted_call {r : Request} {answer : r.Answer} (visits : List (Visit ι ν))
    (silent : r.failure? answer = none ∨ r.kind = .parent) :
    Accounted [.call r visits (.returned answer)] := by
  rcases silent with fine | parent
  · simp [Accounted, failures, told, List.filterMap_cons, failure?, tells?, line?, fine]
  · cases failed : r.failure? answer <;>
      simp [Accounted, failures, told, List.filterMap_cons, failure?, tells?, line?, failed, parent]

/-- So is any other request that fails, once the failure is told. -/
theorem accounted_failure {r : Request} {answer : r.Answer} {failure : Failure} {line : Report}
    (visits : List (Visit ι ν)) (failed : r.failure? answer = some failure)
    (loud : r.kind ≠ .parent) (tells : line.tells? = some (r, failure)) :
    Accounted [.call r visits (.returned answer), .report line] := by
  simp [Accounted, failures, told, List.filterMap_cons, failure?, tells?, line?, failed, tells,
    loud]

end Act

namespace Program

/-- Whatever is answered, all acts of the program are accounted for. -/
def Candid (p : Program α) : Prop :=
  ∀ ⦃ι ν : Type⦄ ⦃acts : List (Act ι ν)⦄ ⦃ending : Ending α⦄,
    p.Allows acts ending → Act.Accounted acts

theorem candid_finish (ending : Ending α) : (finish ending).Candid := by
  intro ι ν acts ending run
  cases run
  rfl

/-- Programs in a row are candid if each of them is. -/
theorem Candid.bind {p : Program α} {f : α → Program β} (hp : p.Candid) (hf : ∀ a, (f a).Candid) :
    (p >>= f).Candid := by
  intro ι ν acts ending run
  rcases run.of_bind with ⟨a, first, later, done, left, rfl⟩ | ⟨panic, lost, rfl⟩
  · exact (hp done).append (hf a left)
  · exact hp lost

/-- A report that tells no failure changes nothing. -/
theorem Candid.report {line : Report} {rest : Program α} (h : rest.Candid)
    (quiet : line.tells? = none) : (Program.report line rest).Candid := by
  intro ι ν acts ending run
  cases run with
  | report run => exact (Act.accounted_report quiet).append (h run)

/-- A request is made by a candid program if a failure is told at once, before the program goes on,
or is a failure of a question about a parent. -/
theorem candid_request {r : Request} {next : r.Answer → Program α}
    (h : ∀ answer, ((r.failure? answer = none ∨ r.kind = .parent) ∧ (next answer).Candid) ∨
      ∃ failure line rest, r.failure? answer = some failure ∧ r.kind ≠ .parent ∧
        line.tells? = some (r, failure) ∧ next answer = .report line rest ∧ rest.Candid) :
    (request r next).Candid := by
  intro ι ν acts ending run
  cases run with
  | cutShort => rfl
  | @answered _ _ visits answer _ _ run =>
    rcases h answer with ⟨silent, candid⟩ | ⟨failure, line, rest, failed, loud, tells, same, candid⟩
    · exact (Act.accounted_call visits silent).append (candid run)
    · rw [same] at run
      cases run with
      | report run =>
        exact (Act.accounted_failure visits failed loud tells).append (candid run)

end Program

namespace Embedder

open Program

/-- The parts of a response are candid. Nothing is said of a parent that is not told, and everything
else that fails is told at once. -/
theorem parts_candid (x : Embedder) (win : Handle) : x.Parts win fun _ p => p.Candid where
  pure _ _ := candid_finish _
  bind _ _ _ _ := Candid.bind
  bearsClass := candid_request fun answer => by
    cases answer with
    | ok name => exact .inl ⟨.inl rfl, candid_finish _⟩
    | error failure => exact .inr ⟨failure, _, _, rfl, nofun, rfl, rfl, candid_finish _⟩
  isChild _ := candid_request fun answer => .inl ⟨.inr rfl, by
    cases answer <;> exact candid_finish _⟩
  attempt _ _ change _ := candid_request fun answer => by
    cases answer with
    | ok value => exact .inl ⟨.inl rfl, candid_finish _⟩
    | error failure =>
      -- No change is taken for the question about the parent, about which nothing is said.
      have loud : (Request.mutate change).kind ≠ .parent := by cases change <;> nofun
      exact .inr ⟨failure, _, _, rfl, loud, rfl, rfl, candid_finish _⟩
  hostSize _ := candid_request fun answer => by
    cases answer with
    | ok area => exact .inl ⟨.inl rfl, candid_finish _⟩
    | error failure => exact .inr ⟨failure, _, _, rfl, nofun, rfl, rfl, candid_finish _⟩
  embedded _ _ := (candid_finish _).report rfl

/-- A response to an activation is candid. -/
theorem candid_respond (x : Embedder) (win : Handle) : (x.respond win).Candid :=
  (x.parts_candid win).respond

/-- The end of an installation is candid. -/
theorem candid_uninstall (x : Embedder) : x.uninstall.Candid := by
  unfold uninstall
  split
  · refine Candid.bind (candid_request fun answer => ?_) fun _ => candid_finish _
    cases answer with
    | ok value => exact .inl ⟨.inl rfl, (candid_finish _).report rfl⟩
    | error failure =>
      exact .inr ⟨failure, _, _, rfl, nofun, rfl, rfl, (candid_finish _).report rfl⟩
  · exact candid_finish _

/-- So is the handing on of an event, which cannot fail. -/
theorem candid_handOn (x : Embedder) (event : Event) (outcome : ActivationOutcome) :
    (x.handOn event outcome).Candid := by
  have forward : (ask (.forward x.hook? event)).Candid :=
    candid_request fun answer => .inl ⟨.inl rfl, candid_finish _⟩
  unfold handOn
  split
  · exact forward.report rfl
  · exact forward

/-- Whatever fails while an embedder handles an event is accounted for. -/
theorem Handles.accounted {x : Embedder} {event : Event} {acts : List (Act ι ν)}
    {ending : Ending ActivationOutcome} (h : x.Handles event acts ending) : Act.Accounted acts := by
  cases h with
  | other _ => rfl
  | refused _ _ => rfl
  | responds _ _ run => exact x.candid_respond _ run

/-- The same while it hands an event on. -/
theorem HandsOn.accounted {x : Embedder} {event : Event} {outcome : Ending ActivationOutcome}
    {acts : List (Act ι ν)} {ending : Ending Int64} (h : x.HandsOn event outcome acts ending) :
    Act.Accounted acts := by
  cases h with
  | unwound _ => rfl
  | returned run => exact x.candid_handOn event _ run

/-- An installation is accounted for, unless the embedder is strict and the error that it returns is
the failure of the registration. -/
theorem Installs.accounted_or {x : Embedder} {host : Handle} {acts : List (Act ι ν)}
    {ending : Ending (Except Failure InstallOutcome × Embedder)} (h : x.Installs host acts ending) :
    Act.Accounted acts ∨
    ∃ failure, ending = .returned (.error (.embedding (.hookRegistration failure.message)), x) ∧
      Act.failures acts = [(.installHook, failure)] ∧ Act.told acts = [] := by
  cases h with
  | @failed _ _ failure _ _ _ => exact .inr ⟨failure, rfl, rfl, rfl⟩
  | _ => exact .inl rfl

end Embedder

/-! ## Everything that embedders do -/

mutual

/-- What embedders do in the course of the act, one list for each event that they get. -/
def Act.deeds : Act ι ν → List (List (Act ι ν))
  | .report _ => []
  | .call _ visits _ => Visit.allDeeds visits

/-- What embedders do in the course of acts, event by event. -/
def Act.allDeeds : List (Act ι ν) → List (List (Act ι ν))
  | [] => []
  | act :: rest => act.deeds ++ Act.allDeeds rest

/-- What embedders do in the course of the visit, event by event. An event is handed on by the
embedder that handled it. -/
def Visit.deeds : Visit ι ν → List (List (Act ι ν))
  | .process _ _ acts _ => acts :: Act.allDeeds acts
  | .activating _ _ handling _ handingOn _ =>
    (handling ++ handingOn) :: (Act.allDeeds handling ++ Act.allDeeds handingOn)
  | .look _ _ => []
  | .note _ => []

/-- What embedders do in the course of visits, event by event. -/
def Visit.allDeeds : List (Visit ι ν) → List (List (Act ι ν))
  | [] => []
  | visit :: rest => visit.deeds ++ Visit.allDeeds rest

end

/-- What embedders do in the course of the operation, one list for an embedder that is installed or
uninstalled and one for each event that embedders get. -/
def Record.deeds : Record ι ν → List (List (Act ι ν))
  | create _ _ acts _ => acts :: Act.allDeeds acts
  | install _ _ acts _ => acts :: Act.allDeeds acts
  | uninstall _ acts _ => acts :: Act.allDeeds acts
  | drop _ acts _ => acts :: Act.allDeeds acts
  | visit v => v.deeds

variable [DecidableEq ι]

mutual

/-- All that embedders do in the course of acts is accounted for. -/
theorem Act.Arise.accounted {roster : Roster ι} {acts : List (Act ι ν)}
    (h : Act.Arise roster acts) : ∀ own ∈ Act.allDeeds acts, Act.Accounted own :=
  match h with
  | .nil _ => List.forall_mem_nil _
  | .report rest => rest.accounted
  | .call visited rest => List.forall_mem_append.mpr ⟨visited.accounted, rest.accounted⟩

/-- All that embedders do in the course of visits is accounted for. -/
theorem Visit.Arise.accounted {roster : Roster ι} {visits : List (Visit ι ν)}
    (h : Visit.Arise roster visits) : ∀ own ∈ Visit.allDeeds visits, Act.Accounted own :=
  match h with
  | .nil _ => List.forall_mem_nil _
  | .process handles during rest => List.forall_mem_append.mpr
      ⟨List.forall_mem_cons.mpr ⟨handles.accounted, during.accounted⟩, rest.accounted⟩
  | .activating handles during handsOn onward rest => List.forall_mem_append.mpr
      ⟨List.forall_mem_cons.mpr ⟨handles.accounted.append handsOn.accounted,
        List.forall_mem_append.mpr ⟨during.accounted, onward.accounted⟩⟩, rest.accounted⟩
  | .look rest => rest.accounted
  | .note rest => rest.accounted

end

/-! ## The main result -/

/-- All that embedders do in the course of an operation is accounted for, unless the operation
installs a strict embedder and the failure of the registration is the error that is returned. -/
theorem Record.Arises.accounted_or {roster after : Roster ι} {record : Record ι ν}
    (h : record.Arises roster after) : ∀ acts ∈ record.deeds, Act.Accounted acts ∨
      ∃ e host failure, record = .install e host acts
          (.returned (.error (.embedding (.hookRegistration failure.message)))) ∧
        Act.failures acts = [(.installHook, failure)] ∧ Act.told acts = [] := by
  cases h with
  | @create e _ _ _ run arise =>
    exact List.forall_mem_cons.mpr
      ⟨.inl ((roster e).candid_uninstall run), fun acts among => .inl (arise.accounted acts among)⟩
  | @uninstall e _ _ run arise =>
    exact List.forall_mem_cons.mpr
      ⟨.inl ((roster e).candid_uninstall run), fun acts among => .inl (arise.accounted acts among)⟩
  | @drop e _ _ run arise =>
    exact List.forall_mem_cons.mpr
      ⟨.inl ((roster e).candid_uninstall run), fun acts among => .inl (arise.accounted acts among)⟩
  | @installReturned e host _ _ _ installs arise =>
    refine List.forall_mem_cons.mpr ⟨?_, fun acts among => .inl (arise.accounted acts among)⟩
    -- The one failure that goes unreported is the one that is returned.
    rcases installs.accounted_or with accounted | ⟨failure, ended, failed, silent⟩
    · exact .inl accounted
    · cases ended
      exact .inr ⟨e, host, failure, rfl, failed, silent⟩
  | installUnwound installs arise =>
    refine List.forall_mem_cons.mpr ⟨?_, fun acts among => .inl (arise.accounted acts among)⟩
    rcases installs.accounted_or with accounted | ⟨failure, ended, -⟩
    · exact .inl accounted
    · cases ended
  | @visit visit arise =>
    have all := arise.accounted
    rw [Visit.allDeeds, Visit.allDeeds, List.append_nil] at all
    exact fun acts among => .inl (all acts among)

/-- In every operation, the failures that an embedder is answered with are reported one by one, each
with the request that failed, by reports for debugging or as a warning that have the wording of the
failure in them. Only a failed question about a parent is passed over in silence, and only the
failed registration of a strict embedder is returned as an error instead. -/
theorem Platform.failures_told {platform : Platform ι ν σ} {depth : Nat}
    {operation : Operation ι} {world world' : World ι σ} {record : Record ι ν}
    (h : platform.operate depth operation world = some (record, world')) :
    (∀ acts ∈ record.deeds,
      (Act.failures acts).filter (·.1.kind ≠ .parent) = Act.told acts ∨
      ∃ e host failure, record = .install e host acts
          (.returned (.error (.embedding (.hookRegistration failure.message)))) ∧
        Act.failures acts = [(.installHook, failure)] ∧ Act.told acts = []) ∧
    ∀ line r failure, Report.tells? line = some (r, failure) →
      line.Mentions failure ∧ (line.level = .debug ∨ line.level = .warn) :=
  ⟨(platform.arises_operate h).accounted_or, fun _ _ _ => Report.mentions_of_tells⟩

namespace Desktop

/-- The crowded desktop without waiting steps, on which everything fails that can be refused, but
for the question about the class. -/
def barren : World Nat (Desktop Nat) :=
  { crowded with
    platform :=
      { crowded.platform with
        faults := fun kind =>
          if kind = .className then none
          else some (.failure (.embedding (.windowQuery kind.name)))
        triggers := [] } }

/-- Where everything fails, eight of nine failures are reported. -/
theorem failures_told_of_barren : ∃ acts world',
    operate (.process 0 (.activation ⟨2⟩)) barren =
      (.visit (.process 0 (.activation ⟨2⟩) acts (.returned (.embedded fallbackSize))), world') ∧
    (Act.failures acts).length = 9 ∧ (Act.told acts).length = 8 ∧
    (Act.failures acts).filter (·.1.kind ≠ .parent) = Act.told acts := by
  have ran : ((platform.process (platform.visit barren.platform.pending) 0 (.activation ⟨2⟩)
      barren).map fun run => (run.ending, (Act.failures run.trace).length,
        (Act.told run.trace).length)) = some (.returned (.embedded fallbackSize), 9, 8) := by
    decide +kernel
  obtain ⟨⟨acts, ending, world'⟩, processed, outcome⟩ := Option.map_eq_some_iff.mp ran
  obtain ⟨rfl, nine, eight⟩ : ending = .returned (.embedded fallbackSize) ∧
      (Act.failures acts).length = 9 ∧ (Act.told acts).length = 8 := by
    simpa only [Prod.mk.injEq] using outcome
  have operated := operate_of_process processed
  rcases (Platform.failures_told (operate_eq_iff.mp operated)).1 acts List.mem_cons_self with
    told | ⟨_, _, _, installed, -⟩
  · exact ⟨acts, world', operated, nine, eight, told⟩
  · cases installed

/-- The question about the parent of the plot fails, and no report has the wording of that. -/
theorem silent_parent_of_barren : ∃ acts world',
    operate (.process 0 (.activation ⟨2⟩)) barren =
      (.visit (.process 0 (.activation ⟨2⟩) acts (.returned (.embedded fallbackSize))), world') ∧
    (.parent ⟨2⟩, .embedding (.windowQuery "parent")) ∈ Act.failures acts ∧
    ∀ line, .report line ∈ acts → ¬ line.Mentions (.embedding (.windowQuery "parent")) := by
  have ran : ((platform.process (platform.visit barren.platform.pending) 0 (.activation ⟨2⟩)
      barren).map fun run => decide (run.ending = .returned (.embedded fallbackSize) ∧
        (.parent ⟨2⟩, .embedding (.windowQuery "parent")) ∈ Act.failures run.trace ∧
        ∀ line ∈ run.trace.filterMap Act.line?,
          ¬ line.Mentions (.embedding (.windowQuery "parent")))) = some true := by
    decide +kernel
  obtain ⟨⟨acts, ending, world'⟩, processed, outcome⟩ := Option.map_eq_some_iff.mp ran
  obtain ⟨rfl, failed, silent⟩ := of_decide_eq_true outcome
  refine ⟨acts, world', operate_of_process processed, failed, fun line said => ?_⟩
  exact silent line (List.mem_filterMap.mpr ⟨_, said, rfl⟩)

end Desktop

end PlotEmbedding
