import PlotEmbedding.Proofs.Chronicle

/-!
# Re-entrant activations

While an embedder handles an activation, the platform may deliver another one to it. The embedder
refuses that one, and the refusal hangs on a single flag, which arbitrarily nested invocations of
several embedders set and clear. The invariant is `Agrees`: the flag of an embedder is set if and
only if an invocation of it is running. `Act.Arise.carries` and `Visit.Arise.carries` take it
through all that can come about, and `Moment.Fits` is what it amounts to at each moment: an
invocation is refused if and only if another one of the same embedder is running, which then waits
for the platform, and an invocation that makes a request is the only one of its embedder.

From the chronicle alone it follows that the requests of two invocations of an embedder never
interleave, by `Standing.pairwise_callers`.
-/

namespace PlotEmbedding

variable {ι ν σ : Type}

/-- The embedders of invocations that are running. -/
def engaged (running : List (Invocation ι)) : List ι := running.map Invocation.embedder

/-- Every one of the invocations waits for the platform. -/
def Waiting (running : List (Invocation ι)) : Prop := ∀ i ∈ running, i.pending ≠ none

/-- The flags are set of those embedders that have an invocation running. -/
def Agrees (running : List (Invocation ι)) (roster : Roster ι) : Prop :=
  ∀ e, (roster e).processing = true ↔ e ∈ engaged running

namespace Part

/-- The embedder is at work, and all that is running besides waits for the platform. An invocation
that handles an event is the only one of its embedder. -/
def AtWork (e : ι) (running : List (Invocation ι)) : Part → Prop
  | handling => ∃ inner outer, running = inner :: outer ∧ inner.embedder = e ∧
      inner.pending = none ∧ e ∉ engaged outer ∧ Waiting outer
  | handingOn => Waiting running
  | upkeep => Waiting running

/-- Puts requests that are no longer pending down to the invocation that made them. -/
def credit (requests : List Request) (running : List (Invocation ι)) (part : Part) :
    List (Invocation ι) :=
  part.innermost (fun i => { i with asked := i.asked ++ requests }) running

variable {part : Part} {e : ι} {running : List (Invocation ι)}

@[simp] theorem credit_nil : part.credit [] running = running := by
  cases part <;> cases running <;> simp [credit, innermost]

@[simp] theorem credit_credit (first later : List Request) :
    part.credit later (part.credit first running) = part.credit (first ++ later) running := by
  cases part <;> cases running <;> simp [credit, innermost]

/-- Who is running does not depend on what has been asked. -/
theorem engaged_innermost {f : Invocation ι → Invocation ι}
    (same : ∀ i, (f i).embedder = i.embedder) :
    engaged (part.innermost f running) = engaged running := by
  cases part <;> cases running <;> simp [engaged, innermost, same]

/-- The numbers of those that are running do not depend on it either. -/
theorem numbers_innermost {f : Invocation ι → Invocation ι} (same : ∀ i, (f i).number = i.number) :
    (part.innermost f running).map Invocation.number = running.map Invocation.number := by
  cases part <;> cases running <;> simp [innermost, same]

/-- Only the innermost invocation changes. -/
theorem mem_innermost {f : Invocation ι → Invocation ι} {i : Invocation ι}
    (h : i ∈ part.innermost f running) : ∃ j ∈ running, i = j ∨ i = f j := by
  cases part with
  | handling =>
    cases running with
    | nil => exact nomatch h
    | cons inner outer =>
      rcases List.mem_cons.mp h with rfl | h
      · exact ⟨inner, List.mem_cons_self, .inr rfl⟩
      · exact ⟨i, List.mem_cons_of_mem _ h, .inl rfl⟩
  | handingOn => exact ⟨i, h, .inl rfl⟩
  | upkeep => exact ⟨i, h, .inl rfl⟩

/-- Once an embedder has made a request, all that is running waits. -/
theorem AtWork.asks (work : part.AtWork e running) (request : Request) :
    Waiting (part.innermost (·.asks request) running) := by
  cases part with
  | handling =>
    obtain ⟨inner, outer, rfl, -, -, -, waiting⟩ := work
    intro i hi
    rcases List.mem_cons.mp hi with rfl | hi
    · exact Option.some_ne_none _
    · exact waiting i hi
  | handingOn => exact work
  | upkeep => exact work

/-- Once it hears how the request ended, the request has been made. -/
theorem AtWork.hears (work : part.AtWork e running) (request : Request) :
    part.innermost Invocation.hears (part.innermost (·.asks request) running) =
      part.credit [request] running := by
  cases part with
  | handling =>
    obtain ⟨⟨number, name, event, asked, pending⟩, outer, rfl, -, idle, -, -⟩ := work
    obtain rfl : pending = none := idle
    rfl
  | handingOn => rfl
  | upkeep => rfl

/-- An embedder that has made requests is still at work. -/
theorem AtWork.credit (work : part.AtWork e running) (requests : List Request) :
    part.AtWork e (part.credit requests running) := by
  cases part with
  | handling =>
    obtain ⟨inner, outer, rfl, name, idle, only, waiting⟩ := work
    exact ⟨_, outer, rfl, name, idle, only, waiting⟩
  | handingOn => exact work
  | upkeep => exact work

end Part

/-- What each moment has to do with the invocations that are running. -/
def Moment.Fits (s : Standing ι) : Moment ι → Prop
  | .begins _ _ => Waiting s.running
  | .asks e part _ => part.AtWork e s.running
  | .hears _ _ _ _ => True
  | .looks e embedder => embedder.processing = true ↔ e ∈ engaged s.running
  | .ends e ending => ∃ inner outer, s.running = inner :: outer ∧ inner.embedder = e ∧
      Waiting outer ∧
      (ending = .returned .reentrant ↔ inner.event.code = activationCode ∧ e ∈ engaged outer) ∧
      (ending = .returned .reentrant → inner.asked = [])

/-! ## Who makes the requests -/

namespace Standing

/-- Invocations are numbered in the order in which they begin. -/
def Numbered (s : Standing ι) : Prop :=
  (s.begun :: s.running.map Invocation.number).Pairwise (· > ·)

/-- The next invocation gets a greater number than all that are running. -/
theorem Numbered.lt {s : Standing ι} (numbered : s.Numbered) {i : Invocation ι}
    (hi : i ∈ s.running) : i.number < s.begun :=
  (List.pairwise_cons.mp numbered).1 _ (List.mem_map_of_mem hi)

/-- An invocation that is running after a moment was running before, or is a new one. -/
theorem running_after {s : Standing ι} {moment : Moment ι} {i : Invocation ι}
    (h : i ∈ (s.after moment).running) :
    (i.number = s.begun ∧ s.begun < (s.after moment).begun) ∨
      ∃ j ∈ s.running, j.embedder = i.embedder ∧ j.number = i.number := by
  cases moment with
  | begins e event =>
    rcases List.mem_cons.mp h with rfl | h
    · exact .inl ⟨rfl, Nat.lt_succ_self _⟩
    · exact .inr ⟨i, h, rfl, rfl⟩
  | asks e part request =>
    -- A request changes the innermost invocation, but neither its embedder nor its number.
    obtain ⟨j, hj, rfl | rfl⟩ := Part.mem_innermost h <;> exact .inr ⟨_, hj, rfl, rfl⟩
  | hears e part request ending =>
    obtain ⟨j, hj, rfl | rfl⟩ := Part.mem_innermost h <;> exact .inr ⟨_, hj, rfl, rfl⟩
  | looks e embedder => exact .inr ⟨i, h, rfl, rfl⟩
  | ends e ending => exact .inr ⟨i, List.mem_of_mem_tail h, rfl, rfl⟩

/-- The number of invocations that have begun does not decrease. -/
theorem begun_le_after (s : Standing ι) (moment : Moment ι) : s.begun ≤ (s.after moment).begun := by
  cases moment with
  | begins e event => exact Nat.le_succ _
  | asks e part request => exact Nat.le_refl _
  | hears e part request ending => exact Nat.le_refl _
  | looks e embedder => exact Nat.le_refl _
  | ends e ending => exact Nat.le_refl _

/-- The numbers do not depend on what has been asked. -/
theorem Numbered.innermost {s : Standing ι} {part : Part} {f : Invocation ι → Invocation ι}
    (numbered : s.Numbered) (same : ∀ i, (f i).number = i.number) :
    Numbered { s with running := part.innermost f s.running } := by
  show (s.begun :: (part.innermost f s.running).map Invocation.number).Pairwise (· > ·)
  rw [Part.numbers_innermost same]
  exact numbered

/-- The numbers stay in order. -/
theorem Numbered.after {s : Standing ι} (numbered : s.Numbered) (moment : Moment ι) :
    (s.after moment).Numbered := by
  cases moment with
  | begins e event =>
    -- The new number is the largest, and all are below the next one.
    refine List.pairwise_cons.mpr ⟨fun n hn => ?_, numbered⟩
    rcases List.mem_cons.mp hn with rfl | hn
    · exact Nat.lt_succ_self _
    · exact Nat.lt_succ_of_lt ((List.pairwise_cons.mp numbered).1 n hn)
  | asks e part request => exact numbered.innermost fun _ => rfl
  | hears e part request ending => exact numbered.innermost fun _ => rfl
  | looks e embedder => exact numbered
  | ends e ending =>
    have later : s.running.tail.Sublist s.running := List.tail_sublist _
    exact numbered.sublist ((later.map Invocation.number).cons_cons s.begun)

/-- The numbers are in order at every moment. -/
theorem Numbered.afterAll {s : Standing ι} (numbered : s.Numbered) (moments : List (Moment ι)) :
    (s.afterAll moments).Numbered := by
  induction moments generalizing s with
  | nil => exact numbered
  | cons moment rest ih => exact ih (numbered.after moment)

variable [DecidableEq ι]

/-- The number of the invocation of the embedder that makes a request in handling an event. -/
def caller? (s : Standing ι) (e : ι) : Moment ι → Option Nat
  | .asks name .handling _ => if name = e then s.running.head?.map Invocation.number else none
  | _ => none

/-- The numbers of the invocations of the embedder that make requests in handling events, request by
request. -/
def callers (e : ι) : Standing ι → List (Moment ι) → List Nat
  | _, [] => []
  | s, moment :: rest => (s.caller? e moment).toList ++ callers e (s.after moment) rest

/-- A request in handling an event comes from the only invocation of the embedder. -/
theorem caller_of_fits {e : ι} {s : Standing ι} {moment : Moment ι} (fit : moment.Fits s) {n : Nat}
    (h : n ∈ (s.caller? e moment).toList) : ∃ inner outer, s.running = inner :: outer ∧
      inner.embedder = e ∧ inner.number = n ∧ e ∉ engaged outer := by
  rw [Option.mem_toList] at h
  unfold caller? at h
  split at h
  · next name request =>
    split at h
    · next same =>
      subst same
      -- The embedder that asks is at work, so that its invocation is the innermost.
      obtain ⟨inner, outer, running, name, -, only, -⟩ := fit
      rw [running] at h
      exact ⟨inner, outer, running, name, Option.some.inj h, only⟩
    · exact nomatch h
  · exact nomatch h

/-- Requests come from invocations of the embedder that are running, or from later ones. -/
theorem mem_callers {e : ι} {s : Standing ι} {moments : List (Moment ι)}
    (fits : Throughout Moment.Fits s moments) {n : Nat} (h : n ∈ s.callers e moments) :
    s.begun ≤ n ∨ ∃ i ∈ s.running, i.embedder = e ∧ i.number = n := by
  induction moments generalizing s with
  | nil => exact nomatch h
  | cons moment rest ih =>
    obtain ⟨fit, fits⟩ := fits
    rcases List.mem_append.mp h with now | later
    · obtain ⟨inner, outer, running, name, number, -⟩ := caller_of_fits fit now
      exact .inr ⟨inner, by rw [running]; exact List.mem_cons_self, name, number⟩
    · rcases ih fits later with new | ⟨i, hi, name, number⟩
      · exact .inl (Nat.le_trans (s.begun_le_after moment) new)
      · -- What runs after the moment is new, or it ran before under the same number.
        rcases running_after hi with ⟨new, -⟩ | ⟨j, hj, same, same'⟩
        · exact .inl (Nat.le_of_eq (new.symm.trans number))
        · exact .inr ⟨j, hj, same.trans name, same'.trans number⟩

/-- The requests of two invocations of an embedder never interleave: what the earlier one asks comes
before what the later one does. -/
theorem pairwise_callers {e : ι} {s : Standing ι} {moments : List (Moment ι)}
    (fits : Throughout Moment.Fits s moments) (numbered : s.Numbered) :
    (s.callers e moments).Pairwise (· ≤ ·) := by
  induction moments generalizing s with
  | nil => exact List.Pairwise.nil
  | cons moment rest ih =>
    obtain ⟨fit, fits⟩ := fits
    have later := ih fits (numbered.after moment)
    refine List.pairwise_append.mpr ⟨?_, later, fun n hn m hm => ?_⟩
    · cases s.caller? e moment <;> simp
    · obtain ⟨inner, outer, running, name, number, only⟩ := caller_of_fits fit hn
      have fresh : n < s.begun := by
        rw [← number]
        exact numbered.lt (by rw [running]; exact List.mem_cons_self)
      rcases mem_callers fits hm with new | ⟨i, hi, name', number'⟩
      · exact Nat.le_of_lt (Nat.lt_of_lt_of_le fresh (Nat.le_trans (s.begun_le_after moment) new))
      · rcases running_after hi with ⟨new, -⟩ | ⟨j, hj, same, same'⟩
        · rw [← number', new]
          exact Nat.le_of_lt fresh
        · -- The invocation was running already, and there is only one of the embedder.
          rw [running] at hj
          rcases List.mem_cons.mp hj with rfl | hj
          · exact Nat.le_of_eq (number.symm.trans (same'.trans number'))
          · have shared : e ∈ engaged outer := by
              rw [← name', ← same]
              exact List.mem_map_of_mem hj
            exact absurd shared only

end Standing

/-! ## What carries the invariant -/

/-- The moments fit, and lead from some running invocations to others. -/
def Carries (running : List (Invocation ι)) (moments : List (Moment ι))
    (running' : List (Invocation ι)) : Prop :=
  ∀ s : Standing ι, s.running = running →
    Standing.Throughout Moment.Fits s moments ∧ (s.afterAll moments).running = running'

/-- Nothing happens. -/
theorem carries_nil (running : List (Invocation ι)) : Carries running [] running :=
  fun _ h => ⟨trivial, h⟩

/-- Moments that fit follow on moments that fit. -/
theorem Carries.append {running running' running'' : List (Invocation ι)}
    {first later : List (Moment ι)} (h : Carries running first running')
    (h' : Carries running' later running'') : Carries running (first ++ later) running'' := by
  intro s hs
  obtain ⟨fits, reached⟩ := h s hs
  obtain ⟨fits', reached'⟩ := h' _ reached
  refine ⟨Standing.throughout_append.mpr ⟨fits, fits'⟩, ?_⟩
  rw [Standing.afterAll_append]
  exact reached'

/-- Flags do not depend on what has been asked. -/
theorem Agrees.innermost {running : List (Invocation ι)} {roster : Roster ι} {part : Part}
    {f : Invocation ι → Invocation ι} (agrees : Agrees running roster)
    (same : ∀ i, (f i).embedder = i.embedder) : Agrees (part.innermost f running) roster := by
  rw [Agrees, Part.engaged_innermost same]
  exact agrees

/-- While nothing is running, the flags agree if all of them are clear. -/
theorem agrees_nil {roster : Roster ι} :
    Agrees [] roster ↔ ∀ e, (roster e).processing = false := by
  simp [Agrees, engaged]

variable [DecidableEq ι]

/-- Flags that agree still do when an embedder begins to respond. -/
theorem Agrees.busy {running : List (Invocation ι)} {roster : Roster ι} {i : Invocation ι}
    (agrees : Agrees running roster) : Agrees (i :: running) (roster.busy i.embedder) := by
  intro name
  rw [engaged, List.map_cons, List.mem_cons]
  by_cases same : name = i.embedder
  · subst same
    simp [Roster.busy]
  · rw [Roster.busy, Function.update_of_ne same, agrees name]
    exact ⟨Or.inr, fun h => h.resolve_left same⟩

/-- Flags do not depend on installations. -/
theorem Agrees.vacant {running : List (Invocation ι)} {roster : Roster ι} (e : ι)
    (agrees : Agrees running roster) : Agrees running (roster.vacant e) := by
  intro name
  rw [← agrees name, Roster.vacant]
  by_cases same : name = e
  · subst same
    rw [Function.update_self]
  · rw [Function.update_of_ne same]

/-- An event is handled from its beginning to its end. The invocation is there in between, and gone
afterwards. -/
theorem carries_handling {roster : Roster ι} {e : ι} {event : Event} {acts : List (Act ι ν)}
    {ending : Ending ActivationOutcome} {running : List (Invocation ι)}
    (handles : (roster e).Handles event acts ending) (agrees : Agrees running roster)
    (waiting : Waiting running)
    (inside : ∀ i : Invocation ι, i.embedder = e → Part.handling.AtWork e (i :: running) →
      Carries (i :: running) (Act.chronicle e .handling acts)
        (Part.handling.credit (Act.requests acts) (i :: running))) :
    Carries running (.begins e event :: (Act.chronicle e .handling acts ++ [.ends e ending]))
      running := by
  intro s hs
  -- The flag tells whether another invocation of the embedder is running.
  have reentrant := handles.reentrant_iff
  rw [agrees e] at reentrant
  have carried : Carries (⟨s.begun, e, event, [], none⟩ :: running) (Act.chronicle e .handling acts)
      (⟨s.begun, e, event, Act.requests acts, none⟩ :: running) := by
    by_cases refused : e ∈ engaged running
    · -- Another invocation of the embedder is running, and so this one does nothing.
      have nothing : acts = [] := by
        cases handles with
        | other _ => rfl
        | refused _ _ => rfl
        | responds _ idle _ =>
          rw [← agrees e, idle] at refused
          exact absurd refused Bool.false_ne_true
      subst nothing
      exact carries_nil _
    · exact inside _ rfl ⟨_, running, rfl, rfl, rfl, refused, waiting⟩
  have quiet : ending = .returned .reentrant → Act.requests acts = [] := by
    rintro rfl
    cases handles with
    | refused _ _ => rfl
    | responds _ _ run => exact absurd rfl ((roster e).respond_returns _ |>.of_allows run _ rfl)
  -- At the end the invocation is the innermost again, and goes.
  obtain ⟨fits, reached⟩ := carried (s.after (.begins e event)) (by rw [← hs]; rfl)
  subst hs
  refine ⟨⟨waiting, Standing.throughout_append.mpr ⟨fits, ?_, trivial⟩⟩, ?_⟩
  · exact ⟨_, _, reached, rfl, waiting, reentrant, quiet⟩
  · rw [Standing.afterAll_cons, Standing.afterAll_append]
    exact congrArg List.tail reached

mutual

/-- Acts that arise fit, and change what is running only by the requests they make. -/
theorem Act.Arise.carries {roster : Roster ι} {acts : List (Act ι ν)} {e : ι} {part : Part}
    {running : List (Invocation ι)} (h : Act.Arise roster acts) (agrees : Agrees running roster)
    (work : part.AtWork e running) :
    Carries running (Act.chronicle e part acts) (part.credit (Act.requests acts) running) :=
  match h with
  | .nil _ => by
    rw [Act.requests, Part.credit_nil]
    exact carries_nil running
  | .report rest => rest.carries agrees work
  | @Act.Arise.call _ _ _ _ request visits ending _ visited rest => by
    -- While the request is pending, the embedder waits like all the others, and calls may begin.
    have asks : Carries running [.asks e part request]
        (part.innermost (·.asks request) running) := by
      rintro s rfl
      exact ⟨⟨work, trivial⟩, rfl⟩
    have meanwhile : Carries (part.innermost (·.asks request) running) (Visit.chronicle visits)
        (part.innermost (·.asks request) running) :=
      visited.carries (agrees.innermost fun _ => rfl) (work.asks request)
    -- An answer ends the waiting, and the request counts among those that were made.
    have hears : Carries (part.innermost (·.asks request) running)
        [.hears e part request ending] (part.credit [request] running) := by
      rintro s hs
      refine ⟨⟨trivial, trivial⟩, ?_⟩
      rw [← work.hears request, ← hs]
      rfl
    have agrees' : Agrees (part.credit [request] running) roster := agrees.innermost fun _ => rfl
    have last := rest.carries agrees' (work.credit [request])
    rw [Part.credit_credit] at last
    exact (asks.append (meanwhile.append hears)).append last

/-- Visits that arise fit, and leave what is running as it was. -/
theorem Visit.Arise.carries {roster : Roster ι} {visits : List (Visit ι ν)}
    {running : List (Invocation ι)} (h : Visit.Arise roster visits) (agrees : Agrees running roster)
    (waiting : Waiting running) : Carries running (Visit.chronicle visits) running :=
  match h with
  | .nil _ => carries_nil running
  | .process handles arise rest => by
    have first := carries_handling handles agrees waiting fun i name work =>
      arise.carries (name ▸ agrees.busy) work
    exact first.append (rest.carries agrees waiting)
  | @Visit.Arise.activating _ _ _ _ e _ _ _ handingOn _ _ handles arise _ arise' rest => by
    have first := carries_handling handles agrees waiting fun i name work =>
      arise.carries (name ▸ agrees.busy) work
    have handed : Carries running (Act.chronicle e .handingOn handingOn) running :=
      arise'.carries agrees waiting
    have all := (first.append handed).append (rest.carries agrees waiting)
    rw [Visit.chronicle, Visit.moments, List.append_cons, ← List.cons_append]
    exact all
  | @Visit.Arise.look _ _ _ _ e rest later => by
    have looks : Carries running [.looks e (roster e)] running := by
      rintro s rfl
      exact ⟨⟨agrees e, trivial⟩, rfl⟩
    exact looks.append (later.carries agrees waiting)
  | .note rest => rest.carries agrees waiting

end

/-! ## Histories -/

/-- No operation leaves a flag set. -/
theorem Record.Arises.idle {roster after : Roster ι} {record : Record ι ν}
    (h : record.Arises roster after) (idle : ∀ e, (roster e).processing = false) :
    ∀ e, (after e).processing = false := by
  have updated : ∀ (e : ι) (embedder : Embedder), embedder.processing = false →
      ∀ name, (Function.update roster e embedder name).processing = false := by
    intro e embedder clear name
    by_cases same : name = e
    · rw [same, Function.update_self]
      exact clear
    · rw [Function.update_of_ne same]
      exact idle name
  -- New embedders and those that are put back have a clear flag.
  cases h with
  | create _ _ => exact updated _ _ rfl
  | @installReturned e _ _ _ embedder installs _ =>
    refine updated _ _ ?_
    cases installs <;> exact idle e
  | installUnwound _ _ => exact idle
  | uninstall _ _ => exact updated _ _ (idle _)
  | drop _ _ => exact updated _ _ rfl
  | visit _ => exact idle

/-- What an operation does fits. -/
theorem Record.Arises.carries {roster after : Roster ι} {record : Record ι ν}
    (h : record.Arises roster after) (agrees : Agrees [] roster) :
    Carries [] record.moments [] := by
  have upkeep : ∀ {roster : Roster ι} {acts : List (Act ι ν)} (e : ι), Act.Arise roster acts →
      Agrees [] roster → Carries [] (Act.chronicle e .upkeep acts) [] :=
    fun e arise agrees => arise.carries agrees nofun
  -- What the owner does is no part of an invocation, and all invocations in it have ended.
  cases h with
  | create _ arise => exact upkeep _ arise (agrees.vacant _)
  | installReturned _ arise => exact upkeep _ arise agrees
  | installUnwound _ arise => exact upkeep _ arise agrees
  | uninstall _ arise => exact upkeep _ arise (agrees.vacant _)
  | drop _ arise => exact upkeep _ arise (agrees.vacant _)
  | visit arise =>
    have carried := arise.carries agrees nofun
    rwa [Visit.chronicle, Visit.chronicle, List.append_nil] at carried

/-- Everything that happens in a history fits if no flag is set at its beginning. -/
theorem Platform.History.carries {platform : Platform ι ν σ} {first world : World ι σ}
    {records : List (Record ι ν)} (history : platform.History first records world)
    (idle : ∀ e, (first.embedders e).processing = false) :
    Carries [] (Record.chronicle records) [] := by
  induction history with
  | begin => exact carries_nil []
  | shift state _ ih => exact ih
  | operate history operated ih =>
    have clear := (history.preserves (fun _ _ _ arises => arises.idle) idle).1
    have arises := platform.arises_operate operated
    rw [Record.chronicle_append, Record.chronicle_singleton]
    exact ih.append (arises.carries (agrees_nil.mpr clear))

/-- A refusal does nothing at all, and finds the flag set. -/
theorem Platform.eq_of_process_reentrant {platform : Platform ι ν σ} {depth : Nat} {e : ι}
    {event : Event} {world : World ι σ} {run : Run ι σ (Act ι ν) ActivationOutcome}
    (h : platform.process (platform.visit depth) e event world = some run)
    (reentrant : run.ending = .returned .reentrant) :
    run = ⟨[], .returned .reentrant, world⟩ ∧ (world.embedders e).processing = true := by
  have handles := (arise_process (platform.orderly_visit depth) h).1
  obtain ⟨activated, busy⟩ := handles.reentrant_iff.mp reentrant
  rw [Platform.process, Event.activating?, if_pos activated] at h
  simp only [busy, if_true] at h
  exact ⟨(Option.some.inj h).symm, busy⟩

/-- How the invocations of embedders exclude each other while these records are made. -/
structure Exclusive (records : List (Record ι ν)) : Prop where
  /-- An invocation is refused if and only if its event announces an activation and an earlier
  invocation of its embedder is still running. All those that are running around it wait for a
  request of their own. One that is refused has made no request. -/
  refused : ∀ before e ending later, Record.chronicle records = before ++ .ends e ending :: later →
    ∃ inner outer, (Standing.afterAll {} before).running = inner :: outer ∧ inner.embedder = e ∧
      (∀ i ∈ outer, i.number < inner.number ∧ i.pending ≠ none) ∧
      (ending = .returned .reentrant ↔
        inner.event.code = activationCode ∧ ∃ i ∈ outer, i.embedder = e) ∧
      (ending = .returned .reentrant → inner.asked = [])
  /-- Requests in handling an event come from the innermost invocation, which is the only one of its
  embedder. -/
  single : ∀ before e request later,
    Record.chronicle records = before ++ .asks e .handling request :: later →
    ∃ inner outer, (Standing.afterAll {} before).running = inner :: outer ∧ inner.embedder = e ∧
      ∀ i ∈ outer, i.embedder ≠ e
  /-- The flag of an embedder is set while an invocation of it is running, and only then. -/
  flagged : ∀ before e embedder later,
    Record.chronicle records = before ++ .looks e embedder :: later →
    (embedder.processing = true ↔ ∃ i ∈ (Standing.afterAll {} before).running, i.embedder = e)
  /-- The requests of two invocations of an embedder do not interleave. -/
  ordered : ∀ e, (Standing.callers e {} (Record.chronicle records)).Pairwise (· ≤ ·)
  /-- No invocation is running in the end. -/
  quiet : (Standing.afterAll {} (Record.chronicle records)).running = []
  /-- The owner of embedders never gets to see a refusal. -/
  answered : ∀ e event acts ending handingOn last, ending = .returned .reentrant →
    .visit (.process e event acts ending) ∉ records ∧
      .visit (.activating e event acts ending handingOn last) ∉ records

/-- Invocations exclude each other whatever the platform does, and no flag is left set. A refusal
leaves the whole world as it is, with the flag set. -/
theorem Platform.History.exclusive {platform : Platform ι ν σ} {first world : World ι σ}
    {records : List (Record ι ν)} (history : platform.History first records world)
    (idle : ∀ e, (first.embedders e).processing = false) :
    Exclusive records ∧ (∀ e, (world.embedders e).processing = false) ∧
      ∀ depth e event (w : World ι σ) run,
        platform.process (platform.visit depth) e event w = some run →
        run.ending = .returned .reentrant →
        run = ⟨[], .returned .reentrant, w⟩ ∧ (w.embedders e).processing = true := by
  obtain ⟨fits, quiet⟩ := history.carries idle {} rfl
  have fit := Standing.throughout_iff.mp fits
  -- The invariant says that everything fits; the clauses are read off it moment by moment.
  have start : ({} : Standing ι).Numbered := List.pairwise_singleton _ _
  obtain ⟨clear, arisen⟩ := history.preserves (fun _ _ _ arises => arises.idle) idle
  refine ⟨⟨?_, ?_, ?_, ?_, quiet, ?_⟩, clear, ?_⟩
  · intro before e ending later cut
    obtain ⟨inner, outer, running, name, waiting, reentrant, nothing⟩ := fit _ _ _ cut
    rw [engaged, List.mem_map] at reentrant
    -- The numbers grow from the outermost to the innermost, so the others began earlier.
    have numbered := start.afterAll before
    rw [Standing.Numbered, running, List.map_cons] at numbered
    have earlier := (List.pairwise_cons.mp (List.pairwise_cons.mp numbered).2).1
    exact ⟨inner, outer, running, name,
      fun i hi => ⟨earlier _ (List.mem_map_of_mem hi), waiting i hi⟩, reentrant, nothing⟩
  · intro before e request later cut
    obtain ⟨inner, outer, running, name, -, only, -⟩ := fit _ _ _ cut
    exact ⟨inner, outer, running, name, fun i hi same => only (List.mem_map.mpr ⟨i, hi, same⟩)⟩
  · intro before e embedder later cut
    have flag : embedder.processing = true ↔ e ∈ engaged (Standing.afterAll {} before).running :=
      fit _ _ _ cut
    rw [engaged, List.mem_map] at flag
    exact flag
  · exact fun e => Standing.pairwise_callers fits start
  · intro e event acts ending handingOn last reentrant
    -- Between operations no flag is set, and so nothing that the owner begins is refused.
    have refuted : ∀ {roster : Roster ι}, (∀ e, (roster e).processing = false) →
        ¬ (roster e).Handles event acts ending := by
      intro roster idle handles
      have busy := (handles.reentrant_iff.mp reentrant).2
      rw [idle e] at busy
      exact absurd busy Bool.false_ne_true
    constructor
    · intro mem
      obtain ⟨roster, after, idle, arises⟩ := arisen _ mem
      cases arises with
      | visit arise =>
        cases arise with
        | process handles _ _ => exact refuted idle handles
    · intro mem
      obtain ⟨roster, after, idle, arises⟩ := arisen _ mem
      cases arises with
      | visit arise =>
        cases arise with
        | activating handles _ _ _ _ => exact refuted idle handles
  · exact fun depth e event w run h reentrant => eq_of_process_reentrant h reentrant

/-- The embedder refuses an activation at the moment. -/
def Moment.isRefusal (e : ι) : Moment ι → Bool
  | .ends name ending => name = e && ending = .returned .reentrant
  | _ => false

theorem Moment.eq_of_isRefusal {e : ι} {moment : Moment ι} (h : moment.isRefusal e = true) :
    moment = .ends e (.returned .reentrant) := by
  cases moment <;> simp_all [isRefusal]

/-- On the crowded desktop an embedder refuses an activation in the middle of another one, which a
panic cuts short later on. -/
theorem Desktop.exclusive_of_crowded : ∃ records world before later,
    platform.operateAll 2 [.activating 0 (.activation ⟨2⟩), .process 0 (.activation ⟨3⟩)] crowded =
      some (records, world) ∧
    Record.chronicle records = before ++ .ends 0 (.returned .reentrant) :: later ∧
    Exclusive records := by
  have refusal : ((platform.operateAll 2 [.activating 0 (.activation ⟨2⟩),
      .process 0 (.activation ⟨3⟩)] crowded).map fun done =>
        (Record.chronicle done.1).any (Moment.isRefusal 0)) = some true := by decide +kernel
  obtain ⟨⟨records, world⟩, performed, refused⟩ := Option.map_eq_some_iff.mp refusal
  obtain ⟨moment, among, refused⟩ := List.any_eq_true.mp refused
  obtain rfl := Moment.eq_of_isRefusal refused
  obtain ⟨before, later, cut⟩ := List.append_of_mem among
  have history : platform.History crowded records world :=
    Platform.History.begin.operateAll performed
  have exclusive := (Platform.History.exclusive history fun _ => rfl).1
  exact ⟨records, world, before, later, performed, cut, exclusive⟩

end PlotEmbedding
