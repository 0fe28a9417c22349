import PlotEmbedding.Desktop.Settling
import PlotEmbedding.Proofs.EmbeddedOnce

/-!
# The course of a desktop

What a call tree makes of the desktop on which it takes place. `Act.Takes` and `Visit.Takes` relate
the states before and after, apart from the steps that wait: a request is answered as the desktop
has it, takes effect, and then the visits take their course. `Desktop.coursing_visit` derives it for
callbacks at every depth of nesting.

Two things are read off the tree from there on. A window that is not touched in the course of it,
which is to say that it is not in `Act.allTouched`, is what it was: this is
`Act.Takes.windows_of_not_touched`. And a panic tears through all that surrounds it, so what a
handling that unwound has left behind is there when the operation is over, by
`Desktop.takes_of_unwound`.
-/

namespace PlotEmbedding

variable {ι ν α : Type}

/-- Did it unwind? -/
def Ending.unwinds : Ending α → Bool
  | returned _ => false
  | unwound _ => true

@[simp] theorem Ending.unwinds_map {β : Type} (f : α → β) (ending : Ending α) :
    (ending.map f).unwinds = ending.unwinds := by
  cases ending <;> rfl

/-- What does not unwind returns a value. -/
theorem Ending.exists_returned {ending : Ending α} (returns : ending.unwinds = false) :
    ∃ value, ending = .returned value := by
  cases ending with
  | returned value => exact ⟨value, rfl⟩
  | unwound panic => exact nomatch returns

/-! ## Requests to a desktop -/

namespace Desktop

/-- The desktop without the steps that wait. -/
def still (d : Desktop ι) : Desktop ι := { d with triggers := [] }

@[simp] theorem faults_still (d : Desktop ι) : d.still.faults = d.faults := rfl

theorem reparent_still (d : Desktop ι) (win parent : Handle) :
    d.still.reparent win parent = (d.reparent win parent).still := by
  have same : d.still.windows win = d.windows win := rfl
  rw [reparent, reparent, same]
  cases d.windows win <;> rfl

/-- What is answered does not depend on the steps that wait. -/
theorem answer_still (d : Desktop ι) (r : Request) :
    d.still.answer r = ((d.answer r).1, (d.answer r).2.still) := by
  cases r with
  | mutate mutation =>
    cases mutation with
    | setParent win parent => exact Prod.ext rfl (reparent_still d win parent)
    | _ => rfl
  | _ => rfl

/-- How a request ends if no step waits for it. -/
def reply (d : Desktop ι) (r : Request) : Ending r.Answer :=
  match d.faults r.kind with
  | some (.panic text) => .unwound text
  | some (.failure failure) => .returned ((r.refusal? failure).getD (d.answer r).1)
  | none => .returned (d.answer r).1

/-- The desktop once a request has taken effect, which a request that meets a fault does not. -/
def effect (d : Desktop ι) (r : Request) : Desktop ι :=
  if d.faults r.kind = none then (d.answer r).2 else d

/-- Only the hand-over to the hook chain cannot be refused, and it has no effect. -/
theorem effect_of_not_refused {r : Request} {failure : Failure} (h : r.refusal? failure = none)
    (d : Desktop ι) : d.effect r = (d.answer r).2 := by
  cases r with
  | forward hook event =>
    unfold effect
    split <;> rfl
  | _ => exact nomatch h

/-- A desktop answers alike if it lies still. -/
theorem reply_still (d : Desktop ι) (r : Request) : d.still.reply r = d.reply r := by
  rw [reply, reply, faults_still, answer_still]

/-- A request has the same effect on a desktop that lies still. -/
theorem effect_still (d : Desktop ι) (r : Request) : d.still.effect r = (d.effect r).still := by
  unfold effect
  rw [faults_still, answer_still]
  split <;> rfl

/-- A request ends at once, or it is answered once the first steps that wait for it have run. -/
theorem react_cases (r : Request) (d : Desktop ι) :
    react r d = .finish (d.reply r) (d.effect r) ∨
    ∃ answer steps d', d.reply r = .returned answer ∧ (d.effect r).pop r.kind = some (steps, d') ∧
      react r d = play answer steps d' := by
  -- This is all that there is to a request that meets no fault.
  have performed : perform r d = .finish (.returned (d.answer r).1) (d.answer r).2 ∨
      ∃ steps d', (d.answer r).2.pop r.kind = some (steps, d') ∧
        perform r d = play (d.answer r).1 steps d' := by
    unfold perform
    simp only
    split
    · exact .inl rfl
    · split
      · next steps d' popped => exact .inr ⟨steps, d', popped, rfl⟩
      · exact .inl rfl
  unfold react reply
  cases fault : d.faults r.kind with
  | none =>
    have effect : d.effect r = (d.answer r).2 := if_pos fault
    rw [effect]
    exact performed.imp_right fun ⟨steps, d', popped, same⟩ => ⟨_, steps, d', rfl, popped, same⟩
  | some planted =>
    have effect : d.effect r = d := if_neg (by rw [fault]; exact Option.some_ne_none _)
    cases planted with
    | panic text =>
      rw [effect]
      exact .inl rfl
    -- Some requests cannot fail, and a failure that is planted for them is passed over.
    | failure failure =>
      cases refused : r.refusal? failure with
      | some answer =>
        simp only [refused]
        rw [effect]
        exact .inl rfl
      | none =>
        simp only [refused]
        rw [effect_of_not_refused refused]
        exact performed.imp_right fun ⟨steps, d', popped, same⟩ => ⟨_, steps, d', rfl, popped, same⟩

/-- Without waiting steps every request ends at once. -/
theorem react_still (r : Request) (d : Desktop ι) :
    react r d.still = .finish (d.reply r) (d.effect r).still := by
  rcases react_cases r d.still with ends | ⟨answer, steps, d', -, popped, -⟩
  · rw [ends, reply_still, effect_still]
  · rw [effect_still] at popped
    exact nomatch popped

/-- The first steps that wait are taken out, and the desktop is else the same. -/
theorem still_of_pop {d d' : Desktop ι} {on : RequestKind} {steps : List (Step ι)}
    (h : d.pop on = some (steps, d')) : d'.still = d.still := by
  obtain ⟨found, -, heq⟩ := Option.map_eq_some_iff.mp h
  cases heq
  rfl

/-- Steps that run while a request is pending do not change its answer. -/
theorem eq_of_play {visitor : Visitor ι Note (Desktop ι)} {answer a : α} {steps : List (Step ι)}
    {d : Desktop ι} {embedders : Roster ι} {run : Run ι (Desktop ι) (Visit ι Note) α}
    (h : (play answer steps d).follow visitor embedders = some run)
    (returned : run.ending = .returned a) : a = answer := by
  induction steps generalizing d embedders run with
  | nil =>
    cases h
    exact (Ending.returned.inj returned).symm
  | cons step rest ih =>
    -- A callback that unwinds takes the request with it, and then there is no answer.
    have delivered : ∀ call : Callback ι,
        (Reaction.callback call d (unlessUnwound (play answer rest))).follow visitor embedders =
          some run → a = answer := by
      intro call h
      rw [Reaction.follow] at h
      split at h
      · cases h
      · next visit reply world visited =>
        obtain ⟨later, hlater, rfl⟩ := Option.map_eq_some_iff.mp h
        cases reply with
        | returned value => exact ih hlater returned
        | unwound panic =>
          cases hlater
          cases returned
    -- All other steps go on with the same answer.
    have noted : ∀ {visit : Visit ι Note} {d' : Desktop ι},
        ((play answer rest d').follow visitor embedders).map (·.after visit) = some run →
        a = answer := by
      intro visit d' h
      obtain ⟨later, hlater, rfl⟩ := Option.map_eq_some_iff.mp h
      exact ih hlater returned
    cases step with
    | process name event => exact delivered (.process name event) h
    | activating name event => exact delivered (.activating name event) h
    | _ => exact noted h

/-- A request that is answered is answered as if no step waited for it. -/
theorem reply_of_react {visitor : Visitor ι Note (Desktop ι)} {r : Request} {d : Desktop ι}
    {embedders : Roster ι} {run : Run ι (Desktop ι) (Visit ι Note) r.Answer} {a : r.Answer}
    (h : (react r d).follow visitor embedders = some run) (returned : run.ending = .returned a) :
    d.reply r = .returned a := by
  rcases react_cases r d with ends | ⟨answer, steps, d', answered, -, plays⟩
  · rw [ends] at h
    cases h
    exact returned
  · rw [plays] at h
    rw [answered, eq_of_play h returned]

end Desktop

/-! ## Windows that are touched -/

/-- The window to which a request gives a parent. -/
def Request.touched : Request → List Handle
  | mutate (.setParent win _) => [win]
  | _ => []

/-- A request that touches the window gives it a parent. -/
theorem Request.exists_of_touched {r : Request} {win : Handle} (h : win ∈ r.touched) :
    ∃ parent, r = .mutate (.setParent win parent) := by
  cases r with
  | mutate mutation =>
    cases mutation with
    | setParent child parent =>
      obtain rfl : win = child := List.mem_singleton.mp h
      exact ⟨parent, rfl⟩
    | _ => exact nomatch h
  | _ => exact nomatch h

/-- The window that the desktop creates, replaces or removes by itself. -/
def Note.touched : Note → List Handle
  | changed (.window win _) => [win]
  | changed (.destroy win) => [win]
  | _ => []

mutual

/-- The windows that are touched in the course of an act. -/
def Act.touched : Act ι Note → List Handle
  | .report _ => []
  | .call request visits _ => request.touched ++ Visit.allTouched visits

/-- The windows that are touched in the course of acts. -/
def Act.allTouched : List (Act ι Note) → List Handle
  | [] => []
  | act :: rest => act.touched ++ Act.allTouched rest

/-- The windows that are touched in the course of a visit. -/
def Visit.touched : Visit ι Note → List Handle
  | .process _ _ acts _ => Act.allTouched acts
  | .activating _ _ handling _ handingOn _ => Act.allTouched handling ++ Act.allTouched handingOn
  | .look _ _ => []
  | .note n => n.touched

/-- The windows that are touched in the course of visits. -/
def Visit.allTouched : List (Visit ι Note) → List Handle
  | [] => []
  | visit :: rest => visit.touched ++ Visit.allTouched rest

end

/-- What takes place while the requests among the acts are pending. -/
def Act.visits : List (Act ι ν) → List (Visit ι ν)
  | [] => []
  | .report _ :: rest => visits rest
  | .call _ visits' _ :: rest => visits' ++ visits rest

/-- What is touched in visits in a row is touched in one of the parts. -/
theorem Visit.allTouched_append (first later : List (Visit ι Note)) :
    allTouched (first ++ later) = allTouched first ++ allTouched later := by
  induction first with
  | nil => rfl
  | cons visit rest ih => rw [List.cons_append, allTouched, allTouched, ih, List.append_assoc]

/-- A window is touched by the requests of an embedder or while they are pending. -/
theorem Act.not_touched {win : Handle} {acts : List (Act ι Note)}
    (own : ∀ r ∈ requests acts, win ∉ r.touched) (spared : win ∉ Visit.allTouched (visits acts)) :
    win ∉ allTouched acts := by
  induction acts with
  | nil => exact List.not_mem_nil
  | cons act rest ih =>
    cases act with
    | report line => exact ih own spared
    | call request during ending =>
      obtain ⟨now, own⟩ := List.forall_mem_cons.mp own
      rw [visits, Visit.allTouched_append, List.mem_append, not_or] at spared
      simp [allTouched, touched, now, spared.1, ih own spared.2]

/-! ## Courses -/

/-- The desktop once it has taken a step of its own. -/
def Note.effect (d : Desktop ι) : Note → Desktop ι
  | changed change => d.apply change
  | planted _ => d
  | parentOf _ _ => d

mutual

/-- The acts take the desktop from the first state to the second, and unwind or not. -/
inductive Act.Takes : Desktop ι → List (Act ι Note) → (lost : Bool) → Desktop ι → Prop where
  /-- Nothing is done, however it ends. -/
  | nil {d : Desktop ι} {lost : Bool} : Act.Takes d [] lost d
  /-- A report is made. -/
  | report {d d' : Desktop ι} {line : Report} {rest : List (Act ι Note)} {lost : Bool} :
      Act.Takes d rest lost d' → Act.Takes d (.report line :: rest) lost d'
  /-- A request is answered. -/
  | answered {d between d' : Desktop ι} {r : Request} {visits : List (Visit ι Note)}
      {answer : r.Answer} {rest : List (Act ι Note)} {lost : Bool} :
      d.reply r = .returned answer → Visit.Takes (d.effect r) visits false between →
      Act.Takes between rest lost d' →
      Act.Takes d (.call r visits (.returned answer) :: rest) lost d'
  /-- A request unwinds, by itself or with one of the visits. -/
  | cutShort {d d' : Desktop ι} {r : Request} {visits : List (Visit ι Note)} {panic : String}
      {lost : Bool} :
      Visit.Takes (d.effect r) visits lost d' →
      Act.Takes d [.call r visits (.unwound panic)] true d'

/-- The visits take the desktop from the first state to the second, and unwind or not. -/
inductive Visit.Takes : Desktop ι → List (Visit ι Note) → (lost : Bool) → Desktop ι → Prop where
  /-- There are no visits. -/
  | nil {d : Desktop ι} : Visit.Takes d [] false d
  /-- An embedder handles an event. -/
  | process {d between d' : Desktop ι} {e : ι} {event : Event} {acts : List (Act ι Note)}
      {outcome : ActivationOutcome} {rest : List (Visit ι Note)} {lost : Bool} :
      Act.Takes d acts false between → Visit.Takes between rest lost d' →
      Visit.Takes d (.process e event acts (.returned outcome) :: rest) lost d'
  /-- The handling of an event unwinds. -/
  | processLost {d d' : Desktop ι} {e : ι} {event : Event} {acts : List (Act ι Note)}
      {panic : String} :
      Act.Takes d acts true d' → Visit.Takes d [.process e event acts (.unwound panic)] true d'
  /-- An embedder handles an event and hands it on. -/
  | activating {d between between' d' : Desktop ι} {e : ι} {event : Event}
      {handling handingOn : List (Act ι Note)} {outcome : ActivationOutcome} {result : Int64}
      {rest : List (Visit ι Note)} {lost : Bool} :
      Act.Takes d handling false between → Act.Takes between handingOn false between' →
      Visit.Takes between' rest lost d' →
      Visit.Takes d
        (.activating e event handling (.returned outcome) handingOn (.returned result) :: rest) lost
        d'
  /-- The handling of an event that would be handed on unwinds. -/
  | handlingLost {d d' : Desktop ι} {e : ι} {event : Event} {handling : List (Act ι Note)}
      {panic panic' : String} :
      Act.Takes d handling true d' →
      Visit.Takes d [.activating e event handling (.unwound panic) [] (.unwound panic')] true d'
  /-- The handing on of an event unwinds. -/
  | handingOnLost {d between d' : Desktop ι} {e : ι} {event : Event}
      {handling handingOn : List (Act ι Note)} {outcome : ActivationOutcome} {panic : String} :
      Act.Takes d handling false between → Act.Takes between handingOn true d' →
      Visit.Takes d [.activating e event handling (.returned outcome) handingOn (.unwound panic)]
        true d'
  /-- The desktop looks at an embedder. -/
  | look {d d' : Desktop ι} {e : ι} {embedder : Embedder} {rest : List (Visit ι Note)}
      {lost : Bool} :
      Visit.Takes d rest lost d' → Visit.Takes d (.look e embedder :: rest) lost d'
  /-- The desktop takes a step of its own. -/
  | note {d d' : Desktop ι} {n : Note} {rest : List (Visit ι Note)} {lost : Bool} :
      Visit.Takes (n.effect d) rest lost d' → Visit.Takes d (.note n :: rest) lost d'

end

/-- Visits follow on one that has not unwound. -/
theorem Visit.Takes.cons {d between d' : Desktop ι} {visit : Visit ι Note}
    {rest : List (Visit ι Note)} {lost : Bool} (first : Visit.Takes d [visit] false between)
    (later : Visit.Takes between rest lost d') : Visit.Takes d (visit :: rest) lost d' := by
  cases first with
  | process acts last =>
    cases last
    exact .process acts later
  | activating handling handingOn last =>
    cases last
    exact .activating handling handingOn later
  | look last =>
    cases last
    exact .look later
  | note last =>
    cases last
    exact .note later

/-! ## What is not touched -/

namespace Desktop

variable {d : Desktop ι} {r : Request} {win : Handle}

/-- Making a window a child of another changes its parent only, and no other window. -/
theorem windows_reparent (d : Desktop ι) (child parent win : Handle) :
    (d.reparent child parent).windows win =
      if win = child then (d.windows win).map fun window => { window with parent := some parent }
      else d.windows win := by
  unfold reparent
  by_cases own : win = child
  · subst own
    rw [if_pos rfl]
    cases found : d.windows win with
    | none => exact found
    | some window => exact if_pos rfl
  · rw [if_neg own]
    cases d.windows child with
    | none => rfl
    | some window => exact if_neg own

/-- A request makes a window a child of another, unless it meets a fault, or changes no window. -/
theorem effect_cases (d : Desktop ι) (r : Request) :
    (∃ child parent, r = .mutate (.setParent child parent) ∧ d.faults .setParent = none ∧
      (d.effect r).windows = (d.reparent child parent).windows) ∨
    ((∀ child parent, r = .mutate (.setParent child parent) → d.faults .setParent ≠ none) ∧
      (d.effect r).windows = d.windows) := by
  by_cases fault : d.faults r.kind = none
  · have effect : d.effect r = (d.answer r).2 := if_pos fault
    rw [effect]
    cases r with
    | mutate mutation =>
      cases mutation with
      | setParent child parent => exact .inl ⟨child, parent, rfl, fault, rfl⟩
      | _ => exact .inr ⟨nofun, rfl⟩
    | _ => exact .inr ⟨nofun, rfl⟩
  · -- A request that meets a fault has no effect at all.
    have effect : d.effect r = d := if_neg fault
    rw [effect]
    refine .inr ⟨?_, rfl⟩
    rintro child parent rfl
    exact fault

/-- A request leaves every window alone that it does not touch. -/
theorem windows_effect (spared : win ∉ r.touched) : (d.effect r).windows win = d.windows win := by
  rcases d.effect_cases r with ⟨child, parent, rfl, -, same⟩ | ⟨-, same⟩
  · rw [same, windows_reparent, if_neg (fun own => spared (List.mem_singleton.mpr own))]
  · rw [same]

/-- A step of the desktop leaves every window alone that it does not touch. -/
theorem windows_note {n : Note} (spared : win ∉ n.touched) :
    (n.effect d).windows win = d.windows win := by
  cases n with
  | changed change =>
    cases change with
    | window other window => exact if_neg fun own => spared (List.mem_singleton.mpr own)
    | destroy other => exact if_neg fun own => spared (List.mem_singleton.mpr own)
    | _ => rfl
  | _ => rfl

end Desktop

section Frame

variable {win : Handle}

mutual

/-- A window that is not touched in the course of acts is afterwards what it was before. -/
theorem Act.Takes.windows_of_not_touched {d d' : Desktop ι} {acts : List (Act ι Note)} {lost : Bool}
    (h : Act.Takes d acts lost d') (spared : win ∉ Act.allTouched acts) :
    d'.windows win = d.windows win :=
  match h with
  | .nil => rfl
  | .report rest => rest.windows_of_not_touched spared
  | .answered _ visited rest => by
    rw [Act.allTouched, Act.touched, List.append_assoc] at spared
    simp only [List.mem_append, not_or] at spared
    rw [rest.windows_of_not_touched spared.2.2, visited.windows_of_not_touched spared.2.1,
      Desktop.windows_effect spared.1]
  | .cutShort visited => by
    rw [Act.allTouched, Act.touched, Act.allTouched, List.append_nil] at spared
    simp only [List.mem_append, not_or] at spared
    rw [visited.windows_of_not_touched spared.2, Desktop.windows_effect spared.1]

/-- A window that is not touched in the course of visits is afterwards what it was before. -/
theorem Visit.Takes.windows_of_not_touched {d d' : Desktop ι} {visits : List (Visit ι Note)}
    {lost : Bool} (h : Visit.Takes d visits lost d') (spared : win ∉ Visit.allTouched visits) :
    d'.windows win = d.windows win :=
  match h with
  | .nil => rfl
  -- What comes first is rewritten last, since the desktop at the end is the one that is known.
  | .process acts rest => by
    simp only [Visit.allTouched, Visit.touched, List.mem_append, not_or] at spared
    rw [rest.windows_of_not_touched spared.2, acts.windows_of_not_touched spared.1]
  | .processLost acts => by
    simp only [Visit.allTouched, Visit.touched, List.append_nil] at spared
    exact acts.windows_of_not_touched spared
  | .activating handling handingOn rest => by
    simp only [Visit.allTouched, Visit.touched, List.mem_append, not_or] at spared
    rw [rest.windows_of_not_touched spared.2, handingOn.windows_of_not_touched spared.1.2,
      handling.windows_of_not_touched spared.1.1]
  | .handlingLost handling => by
    simp only [Visit.allTouched, Visit.touched, List.mem_append, not_or] at spared
    exact handling.windows_of_not_touched spared.1.1
  | .handingOnLost handling handingOn => by
    simp only [Visit.allTouched, Visit.touched, List.mem_append, not_or] at spared
    rw [handingOn.windows_of_not_touched spared.1.2, handling.windows_of_not_touched spared.1.1]
  | .look rest => rest.windows_of_not_touched spared
  | .note rest => by
    simp only [Visit.allTouched, Visit.touched, List.mem_append, not_or] at spared
    rw [rest.windows_of_not_touched spared.2, Desktop.windows_note spared.1]

end

end Frame

/-! ## What a panic leaves behind -/

mutual

/-- A handling that unwound in the course of acts unwinds them too, and leaves the desktop as they
do. -/
theorem Act.Takes.of_unwound {d d' : Desktop ι} {acts own : List (Act ι Note)} {lost : Bool} {e : ι}
    {event : Event} {panic : String} (h : Act.Takes d acts lost d')
    (among : ⟨e, event, own, .unwound panic⟩ ∈ Act.allHandlings acts) :
    lost = true ∧ ∃ before, Act.Takes before own true d' :=
  match h with
  | .nil => nomatch among
  | .report rest => rest.of_unwound among
  | .answered _ visited rest => by
    rcases List.mem_append.mp among with among | among
    -- A request is not answered if a visit during it unwound.
    · exact nomatch (visited.of_unwound among).1
    · exact rest.of_unwound among
  | .cutShort visited => by
    rw [Act.allHandlings, Act.handlings, Act.allHandlings, List.append_nil] at among
    exact ⟨rfl, (visited.of_unwound among).2⟩

/-- A handling that unwound in the course of visits unwinds them too, and leaves the desktop as they
do. -/
theorem Visit.Takes.of_unwound {d d' : Desktop ι} {visits : List (Visit ι Note)}
    {own : List (Act ι Note)} {lost : Bool} {e : ι} {event : Event} {panic : String}
    (h : Visit.Takes d visits lost d')
    (among : ⟨e, event, own, .unwound panic⟩ ∈ Visit.allHandlings visits) :
    lost = true ∧ ∃ before, Act.Takes before own true d' :=
  match h with
  | .nil => nomatch among
  | .process acts rest => by
    rcases List.mem_append.mp among with among | among
    · -- Neither the handling itself nor one in the course of it unwound, for it returned.
      rcases List.mem_cons.mp among with heq | among
      · exact nomatch heq
      · exact nomatch (acts.of_unwound among).1
    · exact rest.of_unwound among
  -- Here it is the handling itself or the one that took it along.
  | .processLost acts => by
    rw [Visit.allHandlings, Visit.handlings, Visit.allHandlings, List.append_nil] at among
    rcases List.mem_cons.mp among with heq | among
    · cases heq
      exact ⟨rfl, _, acts⟩
    · exact acts.of_unwound among
  | .activating handling handingOn rest => by
    rw [Visit.allHandlings_activating] at among
    rcases List.mem_append.mp among with among | among
    · rcases List.mem_cons.mp among with heq | among
      · exact nomatch heq
      · exact nomatch (handling.of_unwound among).1
    · rcases List.mem_append.mp among with among | among
      · exact nomatch (handingOn.of_unwound among).1
      · exact rest.of_unwound among
  | .handlingLost handling => by
    rw [Visit.allHandlings_activating, Visit.allHandlings, Act.allHandlings, List.append_nil,
      List.append_nil] at among
    rcases List.mem_cons.mp among with heq | among
    · cases heq
      exact ⟨rfl, _, handling⟩
    · exact handling.of_unwound among
  | .handingOnLost handling handingOn => by
    rw [Visit.allHandlings_activating, Visit.allHandlings, List.append_nil] at among
    rcases List.mem_append.mp among with among | among
    · rcases List.mem_cons.mp among with heq | among
      · exact nomatch heq
      · exact nomatch (handling.of_unwound among).1
    · exact handingOn.of_unwound among
  | .look rest => rest.of_unwound among
  | .note rest => rest.of_unwound among

end

/-! ## Runs take their course -/

namespace Desktop

theorem apply_still (d : Desktop ι) (change : Change) :
    d.still.apply change = (d.apply change).still := by
  cases change <;> rfl

/-- What callbacks do takes its course. -/
def Coursing (visitor : Visitor ι Note (Desktop ι)) : Prop :=
  ∀ ⦃call world visit reply world'⦄, visitor call world = some (visit, reply, world') →
    Visit.Takes world.platform.still [visit] reply.unwinds world'.platform.still

section Coursing

variable {visitor : Visitor ι Note (Desktop ι)} (coursing : Coursing visitor)
include coursing

/-- Steps take their course. -/
theorem takes_play {answer : α} {steps : List (Step ι)} {d : Desktop ι} {embedders : Roster ι}
    {run : Run ι (Desktop ι) (Visit ι Note) α}
    (h : (play answer steps d).follow visitor embedders = some run) :
    Visit.Takes d.still run.trace run.ending.unwinds run.world.platform.still := by
  induction steps generalizing d embedders run with
  | nil =>
    cases h
    exact .nil
  | cons step rest ih =>
    have delivered : ∀ call : Callback ι,
        (Reaction.callback call d (unlessUnwound (play answer rest))).follow visitor embedders =
          some run →
        Visit.Takes d.still run.trace run.ending.unwinds run.world.platform.still := by
      intro call h
      rw [Reaction.follow] at h
      split at h
      · cases h
      · next visit reply world visited =>
        obtain ⟨later, hlater, rfl⟩ := Option.map_eq_some_iff.mp h
        have first := coursing visited
        cases reply with
        | returned value => exact first.cons (ih hlater)
        | unwound panic =>
          -- The steps that are left do not run.
          cases hlater
          exact first
    have noted : ∀ (n : Note) {d' : Desktop ι}, n.effect d.still = d'.still →
        ((play answer rest d').follow visitor embedders).map (·.after (.note n)) = some run →
        Visit.Takes d.still run.trace run.ending.unwinds run.world.platform.still := by
      intro n d' same h
      obtain ⟨later, hlater, rfl⟩ := Option.map_eq_some_iff.mp h
      have takes := ih hlater
      rw [← same] at takes
      exact .note takes
    cases step with
    | process name event => exact delivered (.process name event) h
    | activating name event => exact delivered (.activating name event) h
    | look name =>
      obtain ⟨later, hlater, rfl⟩ := Option.map_eq_some_iff.mp h
      exact .look (ih hlater)
    | parentOf win => exact noted (.parentOf win (d.parentOf win)) rfl h
    | change change => exact noted (.changed change) (d.apply_still change) h
    | trigger on steps =>
      have same : (Note.planted on).effect d.still = (d.plant on steps).still := rfl
      exact noted (.planted on) same h

/-- A request takes its course, which ends with the request unless that unwinds by itself. -/
theorem takes_react {r : Request} {d : Desktop ι} {embedders : Roster ι}
    {run : Run ι (Desktop ι) (Visit ι Note) r.Answer}
    (h : (react r d).follow visitor embedders = some run) :
    ∃ lost, Visit.Takes (d.effect r).still run.trace lost run.world.platform.still ∧
      (run.ending.unwinds = false → lost = false) := by
  rcases react_cases r d with ends | ⟨answer, steps, d', -, popped, plays⟩
  · rw [ends] at h
    cases h
    exact ⟨false, .nil, fun _ => rfl⟩
  · rw [plays] at h
    rw [← still_of_pop popped]
    exact ⟨_, takes_play coursing h, id⟩

/-- A program takes its course. -/
theorem takes_run (program : Program α) {world : World ι (Desktop ι)}
    {run : Run ι (Desktop ι) (Act ι Note) α} (h : program.run platform visitor world = some run) :
    Act.Takes world.platform.still run.trace run.ending.unwinds run.world.platform.still := by
  induction program generalizing world run with
  | finish ending =>
    cases h
    exact .nil
  | report line rest ih =>
    obtain ⟨later, hlater, rfl⟩ := Option.map_eq_some_iff.mp h
    exact .report (ih hlater)
  | request r next ih =>
    rw [Program.run] at h
    split at h
    · cases h
    · next visits answer world' reacted =>
      obtain ⟨later, hlater, rfl⟩ := Option.map_eq_some_iff.mp h
      obtain ⟨lost, takes, returned⟩ := takes_react coursing reacted
      -- An answered request has not been lost, so nothing of what took place in it was.
      obtain rfl := returned rfl
      rw [← effect_still] at takes
      exact .answered ((reply_still ..).trans (reply_of_react reacted rfl)) takes (ih answer hlater)
    · next visits panic world' reacted =>
      cases h
      obtain ⟨lost, takes, -⟩ := takes_react coursing reacted
      rw [← effect_still] at takes
      exact .cutShort takes

variable [DecidableEq ι] {e : ι} {event : Event}

/-- The handling of an event takes its course. -/
theorem takes_process {world : World ι (Desktop ι)}
    {run : Run ι (Desktop ι) (Act ι Note) ActivationOutcome}
    (h : platform.process visitor e event world = some run) :
    Act.Takes world.platform.still run.trace run.ending.unwinds run.world.platform.still := by
  unfold Platform.process at h
  split at h
  · cases h
    exact .nil
  · split at h
    · cases h
      exact .nil
    · obtain ⟨response, responded, rfl⟩ := Option.map_eq_some_iff.mp h
      have takes := takes_run coursing _ responded
      exact takes

/-- The handling and handing on of an event takes its course. -/
theorem takes_activating {world world' : World ι (Desktop ι)} {visit : Visit ι Note}
    {ending : Ending Int64}
    (h : platform.activating visitor e event world = some (visit, ending, world')) :
    Visit.Takes world.platform.still [visit] ending.unwinds world'.platform.still := by
  unfold Platform.activating at h
  split at h
  · exact nomatch h
  · next handling panic after processed =>
    cases h
    -- An event whose handling unwound is not handed on.
    exact .handlingLost (takes_process coursing processed)
  · next handling outcome after processed =>
    obtain ⟨⟨handingOn, ending, passed⟩, passing, heq⟩ := Option.map_eq_some_iff.mp h
    cases heq
    have handled := takes_process coursing processed
    have handed := takes_run coursing _ passing
    cases ending with
    | returned result => exact .activating handled handed .nil
    | unwound panic => exact .handingOnLost handled handed

end Coursing

variable [DecidableEq ι]

/-- Callbacks take their course at every depth of nesting. -/
theorem coursing_visit (depth : Nat) : Coursing (ι := ι) (platform.visit depth) := by
  induction depth with
  | zero => exact fun call world visit reply world' h => nomatch h
  | succ depth ih =>
    intro call world visit reply world' h
    cases call with
    | process e event =>
      obtain ⟨⟨acts, ending, after⟩, processed, heq⟩ := Option.map_eq_some_iff.mp h
      cases heq
      have takes := takes_process ih processed
      rw [Ending.unwinds_map]
      cases ending with
      | returned outcome => exact .process takes .nil
      | unwound panic => exact .processLost takes
    | activating e event =>
      obtain ⟨⟨visit, ending, after⟩, activated, heq⟩ := Option.map_eq_some_iff.mp h
      cases heq
      rw [Ending.unwinds_map]
      exact takes_activating ih activated

/-- An operation on a desktop has the result that it has at the depth of what waits there. -/
theorem operate_eq_iff {operation : Operation ι} {world : World ι (Desktop ι)}
    {result : Record ι Note × World ι (Desktop ι)} :
    operate operation world = result ↔
      platform.operate world.platform.pending operation world = some result := by
  have found : platform.operate world.platform.pending operation world =
      some (operate operation world) := (Option.some_get _).symm
  rw [found, Option.some_inj]

/-- To let an embedder handle an event is to run its handling. -/
theorem operate_of_process {e : ι} {event : Event} {world : World ι (Desktop ι)}
    {run : Run ι (Desktop ι) (Act ι Note) ActivationOutcome}
    (h : platform.process (platform.visit world.platform.pending) e event world = some run) :
    operate (.process e event) world =
      (.visit (.process e event run.trace run.ending), run.world) := by
  rw [operate_eq_iff, Platform.operate, h]
  rfl

/-- There always is a run of the handling. -/
theorem operate_process (e : ι) (event : Event) (world : World ι (Desktop ι)) :
    ∃ run, platform.process (platform.visit world.platform.pending) e event world = some run ∧
      operate (.process e event) world =
        (.visit (.process e event run.trace run.ending), run.world) := by
  have found := operate_eq_iff.mp (Eq.refl (operate (.process e event) world))
  obtain ⟨run, processed, same⟩ := Option.map_eq_some_iff.mp found
  exact ⟨run, processed, same.symm⟩

/-- What a handling has left behind that unwound in the course of an operation is there after the
operation: nothing takes place between the panic and the end of the operation. -/
theorem takes_of_unwound {operation : Operation ι} {record : Record ι Note}
    {world world' : World ι (Desktop ι)} {e : ι} {event : Event} {acts : List (Act ι Note)}
    {panic : String} (h : operate operation world = (record, world'))
    (among : ⟨e, event, acts, .unwound panic⟩ ∈ record.handlings) :
    ∃ before, Act.Takes before acts true world'.platform.still := by
  rw [operate_eq_iff] at h
  have coursing := coursing_visit (ι := ι) world.platform.pending
  -- An operation that delivers an event is one visit, and ends as the visit does.
  have visited : ∀ {visit : Visit ι Note} {lost : Bool}, record = .visit visit →
      Visit.Takes world.platform.still [visit] lost world'.platform.still →
      ∃ before, Act.Takes before acts true world'.platform.still := by
    rintro visit lost rfl takes
    rw [Record.handlings, ← Visit.allHandlings_singleton] at among
    exact (takes.of_unwound among).2
  cases operation with
  | create name options =>
    obtain ⟨run, ran, heq⟩ := Option.map_eq_some_iff.mp h
    cases heq
    exact ((takes_run coursing _ ran).of_unwound among).2
  | install name host =>
    obtain ⟨run, ran, heq⟩ := Option.map_eq_some_iff.mp h
    have takes := takes_run coursing _ ran
    split at heq <;>
      · -- The handling unwound, so the installation did not return, whatever it would have come to.
        cases heq
        exact (takes.of_unwound among).2
  | uninstall name =>
    obtain ⟨run, ran, heq⟩ := Option.map_eq_some_iff.mp h
    cases heq
    exact ((takes_run coursing _ ran).of_unwound among).2
  | drop name =>
    obtain ⟨run, ran, heq⟩ := Option.map_eq_some_iff.mp h
    cases heq
    exact ((takes_run coursing _ ran).of_unwound among).2
  | process name event' =>
    obtain ⟨⟨own, ending, after⟩, processed, heq⟩ := Option.map_eq_some_iff.mp h
    cases heq
    have takes := takes_process coursing processed
    cases ending with
    | returned outcome => exact visited rfl (.process takes .nil)
    | unwound panic => exact visited rfl (.processLost takes)
  | activating name event' =>
    obtain ⟨⟨visit, ending, after⟩, activated, heq⟩ := Option.map_eq_some_iff.mp h
    cases heq
    exact visited rfl (takes_activating coursing activated)

end Desktop

end PlotEmbedding
