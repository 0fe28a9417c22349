import PlotEmbedding.Proofs.Course

/-!
# Interrupted embeddings

A panic may cut the handling of an activation short at any request, and what has been done to the
window by then stays. Whether the next activation of the window makes up for that hangs on its
parent alone, which is changed halfway through the steps of embedding it.

An embedder itself unwinds for one reason only, which is the arithmetic on a client area that it is
told: `Program.Steady` says so of its programs, and `Act.untroubled` says of what it does that there
is no reason for it to unwind. `Record.Arises.of_unwound` finds the embedder of an interrupted
handling unchanged, and `Act.Takes.parentOf_of_adopted` and `Act.Takes.told_parent` find out what
has become of the parent of the window. `Desktop.process_after_panic` puts the two together with the
next activation.
-/

namespace PlotEmbedding

variable {ι ν α β : Type}

/-! ## Programs that do not unwind by themselves -/

/-- If the answer tells a client area, the area has a size. -/
def Request.sized : (r : Request) → r.Answer → Bool
  | clientArea _, .ok area => !area.fillSize.unwinds
  | _, _ => true

/-- Nothing unwinds in the act: the request is answered, and if a client area is told it has a size.
-/
def Act.untroubled : Act ι ν → Bool
  | .report _ => true
  | .call r _ (.returned answer) => r.sized answer
  | .call _ _ (.unwound _) => false

namespace Program

/-- The program does not unwind as long as the client areas that it is told have a size. -/
def Steady : Program α → Prop
  | .finish ending => ending.unwinds = false
  | .report _ rest => rest.Steady
  | .request r next => ∀ answer, r.sized answer = true → (next answer).Steady

/-- Programs in a row do not unwind if none of them does. -/
theorem Steady.bind {p : Program α} {f : α → Program β} (hp : p.Steady) (hf : ∀ a, (f a).Steady) :
    (p >>= f).Steady := by
  rw [bind_eq]
  induction p with
  | finish ending =>
    cases ending with
    | returned a => exact hf a
    | unwound panic => exact nomatch hp
  | report line rest ih => exact ih hp
  | request r next ih => exact fun answer sized => ih answer (hp answer sized)

/-- A run returns if its program does not unwind and nothing unwinds in its acts. -/
theorem Allows.returns {p : Program α} {acts : List (Act ι ν)} {ending : Ending α}
    (run : p.Allows acts ending) (steady : p.Steady)
    (untroubled : ∀ act ∈ acts, act.untroubled = true) : ending.unwinds = false := by
  induction run with
  | finish ending => exact steady
  | report _ ih => exact ih steady (List.forall_mem_cons.mp untroubled).2
  | answered _ ih =>
    obtain ⟨sized, untroubled⟩ := List.forall_mem_cons.mp untroubled
    exact ih (steady _ sized) untroubled
  | cutShort => exact nomatch (List.forall_mem_cons.mp untroubled).1

end Program

namespace Embedder

open Program

/-- The parts of a response do not unwind by themselves. -/
theorem parts_steady (x : Embedder) (win : Handle) : x.Parts win fun _ p => p.Steady where
  pure _ _ := rfl
  bind _ _ _ _ := Steady.bind
  bearsClass answer _ := by cases answer <;> rfl
  isChild _ answer _ := by cases answer <;> rfl
  attempt _ _ _ _ answer _ := by cases answer <;> rfl
  hostSize _ answer sized := by
    cases answer with
    | error failure => rfl
    | ok area => exact (Bool.not_eq_true' _).mp sized
  embedded _ _ := rfl

/-- A response does not unwind by itself as long as the client area of the host has a size. -/
theorem steady_respond (x : Embedder) (win : Handle) : (x.respond win).Steady :=
  (x.parts_steady win).respond

/-- An embedder whose response unwinds is installed. -/
theorem Responds.installed {x : Embedder} {win : Handle} {acts : List (Act ι ν)} {panic : String}
    (h : x.Responds win acts (.unwound panic)) :
    ∃ installation, x.installation = some installation := by
  cases h with
  | classPanic installed => exact ⟨_, installed⟩
  | parentPanic installed => exact ⟨_, installed⟩
  | embeds installed _ _ => exact ⟨_, installed⟩

end Embedder

/-! ## What was interrupted -/

section Unwound

variable [DecidableEq ι] {e : ι} {event : Event} {acts : List (Act ι ν)} {panic : String}
  {roster : Roster ι}

/-- The embedder is in this state, unless it is busy, in which case it refuses all activations. -/
def Embedder.Awaits (x : Embedder) (e : ι) (roster : Roster ι) : Prop :=
  roster e = x ∨ (roster e).processing = true

/-- If it is one of the embedder and unwound, the handling was begun in this state. -/
def Embedder.Began (x : Embedder) (e : ι) (h : Handling ι ν) : Prop :=
  h.embedder = e → ∀ panic, h.ending = .unwound panic → x.Handles h.event h.acts (.unwound panic)

theorem Embedder.Awaits.busy {x : Embedder} (h : x.Awaits e roster) (name : ι) :
    x.Awaits e (roster.busy name) := by
  by_cases own : e = name
  · subst own
    exact .inr (by rw [Roster.busy, Function.update_self])
  · rw [Awaits, Roster.busy, Function.update_of_ne own]
    exact h

omit [DecidableEq ι] in
theorem Embedder.Awaits.began {x : Embedder} {name : ι} {ending : Ending ActivationOutcome}
    (h : x.Awaits e roster) (handles : (roster name).Handles event acts ending) :
    x.Began e ⟨name, event, acts, ending⟩ := by
  rintro rfl panic rfl
  rcases h with same | busy
  · exact same ▸ handles
  · cases handles with
    | responds _ idle _ => exact absurd (idle.symm.trans busy) Bool.false_ne_true

/-- A handling that unwound in the course of acts was begun in the state in which its embedder was
before. -/
theorem Act.Arise.of_unwound {all : List (Act ι ν)} (h : Act.Arise roster all)
    (among : ⟨e, event, acts, .unwound panic⟩ ∈ Act.allHandlings all) :
    (roster e).Handles event acts (.unwound panic) :=
  h.forall_handling (I := (roster e).Awaits e) (Q := (roster e).Began e)
    (fun name awaits => awaits.busy name) Embedder.Awaits.began (.inl rfl) _ among rfl panic rfl

/-- A handling that unwound in the course of visits was begun in the state in which its embedder was
before. -/
theorem Visit.Arise.of_unwound {visits : List (Visit ι ν)} (h : Visit.Arise roster visits)
    (among : ⟨e, event, acts, .unwound panic⟩ ∈ Visit.allHandlings visits) :
    (roster e).Handles event acts (.unwound panic) :=
  h.forall_handling (I := (roster e).Awaits e) (Q := (roster e).Began e)
    (fun name awaits => awaits.busy name) Embedder.Awaits.began (.inl rfl) _ among rfl panic rfl

/-- The operation in the course of which a handling unwound has left the embedder as it was when the
handling began. -/
theorem Record.Arises.of_unwound {after : Roster ι} {record : Record ι ν}
    (h : record.Arises roster after)
    (among : ⟨e, event, acts, .unwound panic⟩ ∈ record.handlings) :
    (roster e).Handles event acts (.unwound panic) ∧ after e = roster e := by
  -- An embedder without installation asks for nothing, so its handling would have returned.
  have installed : ∀ {x : Embedder}, x.Handles event acts (.unwound panic) →
      ∃ installation, x.installation = some installation := by
    intro x handles
    cases handles with
    | responds _ _ run => exact (Embedder.responds_of_allows run).installed
  -- The operation neither ends an installation of the embedder nor brings one about.
  have found : (roster e).Handles event acts (.unwound panic) ∧ record.vacated? ≠ some e := by
    rcases h.upkeep_or_visit with
      ⟨name, own, between, upkeep, arise, gone, same, -⟩ | ⟨visit, rfl, arise⟩
    · rw [Record.handlings_of_upkeep upkeep] at among
      have handles := arise.of_unwound among
      have kept : record.vacated? ≠ some e := by
        intro vacated
        obtain ⟨installation, has⟩ := installed handles
        exact Option.some_ne_none _ (has.symm.trans (gone e vacated))
      exact ⟨same e kept ▸ handles, kept⟩
    · rw [Record.handlings, ← Visit.allHandlings_singleton] at among
      exact ⟨arise.of_unwound among, (Option.some_ne_none _).symm⟩
  refine ⟨found.1, ?_⟩
  obtain ⟨installation, has⟩ := installed found.1
  have leads := h.leads e
  generalize after e = left at leads ⊢
  cases leads with
  | created => exact absurd rfl found.2
  | dropped => exact absurd rfl found.2
  | uninstalled => exact absurd rfl found.2
  | installed vacant _ _ => exact absurd (has.symm.trans vacant) (Option.some_ne_none _)
  | kept _ _ => rfl

end Unwound

/-! ## The parent of the window -/

/-- The embedder is told this answer to its request. -/
def Act.Tells (acts : List (Act ι ν)) (r : Request) (answer : r.Answer) : Prop :=
  ∃ visits, .call r visits (.returned answer) ∈ acts

namespace Desktop

variable {d : Desktop ι} {r : Request} {win host : Handle}

/-- A request that can only make the window a child of the host does so, if the window exists and
the request meets no fault. -/
theorem parentOf_effect (found : d.parentOf win ≠ none)
    (aims : ∀ child parent, r = .mutate (.setParent child parent) → child = win ∧ parent = host) :
    (d.effect r).parentOf win =
      if d.faults .setParent = none ∧ r = .mutate (.setParent win host) then some (some host)
      else d.parentOf win := by
  rcases d.effect_cases r with ⟨child, parent, rfl, healthy, same⟩ | ⟨faulty, same⟩
  · obtain ⟨rfl, rfl⟩ := aims child parent rfl
    rw [if_pos ⟨healthy, rfl⟩, parentOf, same, windows_reparent, if_pos rfl, Option.map_map]
    rw [parentOf] at found
    cases window : d.windows child with
    | none => exact absurd (by rw [window]; rfl) found
    | some window => rfl
  · rw [if_neg fun h => faulty _ _ h.2 h.1, parentOf, same, parentOf]

/-- A request is answered as the desktop has it, or it is refused. -/
theorem answer_or_refusal {a : r.Answer} (h : d.reply r = .returned a) :
    a = (d.answer r).1 ∨ ∃ failure, r.refusal? failure = some a := by
  unfold reply at h
  split at h
  · exact nomatch h
  · next failure _ =>
    cases refused : r.refusal? failure with
    | none =>
      rw [refused] at h
      exact .inl (Ending.returned.inj h).symm
    | some answer =>
      rw [refused] at h
      exact .inr ⟨failure, refused.trans (congrArg some (Ending.returned.inj h))⟩
  · exact .inl (Ending.returned.inj h).symm

/-- A request that meets no fault has its answer. -/
theorem reply_of_healthy (healthy : d.faults r.kind = none) :
    d.reply r = .returned (d.answer r).1 := by
  rw [reply, healthy]

/-- A change that succeeds has met no fault. -/
theorem faults_of_reply {mutation : Mutation}
    (h : d.reply (.mutate mutation) = .returned (.ok ())) : d.faults mutation.kind = none := by
  unfold reply at h
  split at h
  · exact nomatch h
  · exact nomatch h
  · next healthy => exact healthy

/-- A parent that is told is the one that the window has. -/
theorem parentOf_of_reply {parent : Option Handle}
    (h : d.reply (.parent win) = .returned (.ok parent)) : parent = (d.parentOf win).join := by
  rcases answer_or_refusal h with same | ⟨failure, refused⟩
  · exact Except.ok.inj same
  · exact nomatch Option.some.inj refused

/-- A window whose class is told exists. -/
theorem parentOf_of_className {capacity : Nat} {name : String}
    (h : d.reply (.className win capacity) = .returned (.ok name)) : d.parentOf win ≠ none := by
  rcases answer_or_refusal h with same | ⟨failure, refused⟩
  · have same : .ok name = d.className win capacity := same
    intro missing
    rw [className, Option.map_eq_none_iff.mp missing] at same
    exact nomatch same
  · exact nomatch Option.some.inj refused

end Desktop

section Parent

variable {d d' : Desktop ι} {win host : Handle} {acts : List (Act ι Note)} {lost : Bool}

/-- A window that is not touched has the parent that an embedder is told. -/
theorem Act.Takes.told_parent {parent : Option Handle} (h : Act.Takes d acts lost d')
    (spared : win ∉ Act.allTouched acts) (told : Act.Tells acts (.parent win) (.ok parent)) :
    parent = (d.parentOf win).join := by
  obtain ⟨visits, among⟩ := told
  induction acts generalizing d with
  | nil => exact nomatch among
  | cons act rest ih =>
    rw [Act.allTouched, List.mem_append, not_or] at spared
    cases h with
    | report later =>
      rcases List.mem_cons.mp among with heq | among
      · exact nomatch heq
      · exact ih later spared.2 among
    | @answered _ between _ r _ _ _ _ reply visited later =>
      obtain ⟨own, during⟩ := not_or.mp (mt List.mem_append.mpr spared.1)
      rcases List.mem_cons.mp among with heq | among
      · cases heq
        exact Desktop.parentOf_of_reply reply
      · have same : between.windows win = d.windows win :=
          (visited.windows_of_not_touched during).trans (Desktop.windows_effect own)
        rw [ih later spared.2 among, Desktop.parentOf, same, Desktop.parentOf]
    | cutShort visited =>
      rcases List.mem_cons.mp among with heq | among
      · exact nomatch heq
      · exact nomatch among

/-- The same is true when the visits during the request are over, if they do not touch the window.
-/
theorem Visit.Takes.parentOf_of_effect {r : Request} {visits : List (Visit ι Note)}
    (h : Visit.Takes (d.effect r) visits lost d') (spared : win ∉ Visit.allTouched visits)
    (found : d.parentOf win ≠ none)
    (aims : ∀ child parent, r = .mutate (.setParent child parent) → child = win ∧ parent = host) :
    d'.parentOf win =
      if d.faults .setParent = none ∧ r = .mutate (.setParent win host) then some (some host)
      else d.parentOf win := by
  rw [← Desktop.parentOf_effect found aims, Desktop.parentOf, h.windows_of_not_touched spared,
    Desktop.parentOf]

/-- A window that exists and that nobody else touches is a child of the host if it was one before,
or once the embedder has been told that it made it one. -/
theorem Act.Takes.parentOf_of_adopted (h : Act.Takes d acts lost d')
    (spared : win ∉ Visit.allTouched (Act.visits acts)) (found : d.parentOf win ≠ none)
    (aims : ∀ r ∈ Act.requests acts, ∀ child parent, r = .mutate (.setParent child parent) →
      child = win ∧ parent = host)
    (adopted : d.parentOf win = some (some host) ∨
      Act.Tells acts (.mutate (.setParent win host)) (.ok ())) :
    d'.parentOf win = some (some host) := by
  induction acts generalizing d with
  | nil =>
    cases h
    refine adopted.resolve_right fun told => ?_
    obtain ⟨_, among⟩ := told
    cases among
  | cons act rest ih =>
    cases h with
    | report later =>
      refine ih later spared found aims (adopted.imp_right fun told => ?_)
      obtain ⟨visits, among⟩ := told
      exact ⟨visits, (List.mem_cons.mp among).resolve_left (by simp)⟩
    | @answered _ between _ r visits answer _ _ reply visited later =>
      rw [Act.visits, Visit.allTouched_append, List.mem_append, not_or] at spared
      obtain ⟨now, aims⟩ := List.forall_mem_cons.mp aims
      -- The parent once this request is over: the host if the request has made it so, or as before.
      have parent := visited.parentOf_of_effect spared.1 found now
      have found' : between.parentOf win ≠ none := by
        rw [parent]
        split
        · exact Option.some_ne_none _
        · exact found
      refine ih later spared.2 found' aims ?_
      rw [parent]
      rcases adopted with child | ⟨visits, among⟩
      · exact .inl (by rw [child, ite_self])
      · rcases List.mem_cons.mp among with heq | among
        · cases heq
          exact .inl (if_pos ⟨Desktop.faults_of_reply reply, rfl⟩)
        · exact .inr ⟨visits, among⟩
    | cutShort visited =>
      rw [Act.visits, Visit.allTouched_append, List.mem_append, not_or] at spared
      have parent := visited.parentOf_of_effect spared.1 found (aims _ List.mem_cons_self)
      have child : d.parentOf win = some (some host) := by
        refine adopted.resolve_right fun told => ?_
        obtain ⟨visits, among⟩ := told
        rcases List.mem_cons.mp among with heq | among
        · cases heq
        · cases among
      rw [parent, child, ite_self]

/-- An embedder that changes the window has found it there. -/
theorem Act.Takes.found_of_changed {x : Embedder} {ending : Ending ActivationOutcome}
    {mutation : Mutation} {answer : Except Failure Unit} (h : Act.Takes d acts lost d')
    (responds : x.Responds win acts ending) (changed : Act.Tells acts (.mutate mutation) answer) :
    d.parentOf win ≠ none := by
  obtain ⟨visits, among⟩ := changed
  cases responds with
  | inactive _ => exact nomatch among
  | classPanic _ => simp at among
  | mismatch _ _ => simp at among
  | parentPanic _ => simp at among
  | already _ => simp at among
  | embeds _ _ _ =>
    cases h with
    | answered reply _ _ => exact Desktop.parentOf_of_className reply

/-- A response after which the window is a child of the host, and one after which it is not, if
nobody else touches the window: either it was told that it made it one, or it was told another
parent and has not come to change it. -/
theorem Act.Takes.parentOf_of_responds {x : Embedder} {installation : Installation}
    {ending : Ending ActivationOutcome} (h : Act.Takes d acts lost d')
    (responds : x.Responds win acts ending) (installed : x.installation = some installation)
    (spared : win ∉ Visit.allTouched (Act.visits acts)) :
    (Act.Tells acts (.mutate (.setParent win installation.host)) (.ok ()) →
      d'.parentOf win = some (some installation.host)) ∧
    ∀ parent, Act.Tells acts (.parent win) (.ok parent) → parent ≠ some installation.host →
      .mutate (.setParent win installation.host) ∉ Act.requests acts →
      d'.parentOf win ≠ some (some installation.host) := by
  have aims : ∀ r ∈ Act.requests acts, ∀ child parent, r = .mutate (.setParent child parent) →
      child = win ∧ parent = installation.host := by
    rintro _ asked child parent rfl
    obtain ⟨own, size, installed', step⟩ := responds.mem_steps _ asked
    obtain rfl := Option.some.inj (installed.symm.trans installed')
    simpa [Embedder.steps] using step
  refine ⟨fun adopted => ?_, fun parent told other silent child => ?_⟩
  · exact h.parentOf_of_adopted spared (h.found_of_changed responds adopted) aims (.inr adopted)
  · -- The embedder has not come to change the parent, so nothing at all has touched the window.
    have own : ∀ r ∈ Act.requests acts, win ∉ r.touched := by
      intro r asked touched
      obtain ⟨target, rfl⟩ := Request.exists_of_touched touched
      obtain ⟨-, rfl⟩ := aims _ asked win target rfl
      exact silent asked
    have spared := Act.not_touched own spared
    have same := h.told_parent spared told
    rw [Desktop.parentOf, ← h.windows_of_not_touched spared, ← Desktop.parentOf, child] at same
    exact other same

end Parent

/-! ## Desktops with one fault -/

/-- Every kind of request. -/
def RequestKind.all : List RequestKind :=
  [.isWindow, .className, .parent, .clientArea, .setStyle, .setExStyle, .removeMenu, .clearTitle,
    .setParent, .place, .postMessage, .installHook, .removeHook, .forward]

theorem Except.eq_ok_of_toOption {ε : Type} {x : Except ε α} {a : α} (h : x.toOption = some a) :
    x = .ok a := by
  cases x <;> cases h
  rfl

namespace Desktop

/-- The crowded desktop without waiting steps, on which requests of one kind panic and nothing else
goes wrong. -/
def fragile (on : RequestKind) : World Nat (Desktop Nat) :=
  { crowded with
    platform :=
      { crowded.platform with
        faults := fun kind => if kind = on then some (.panic "lost") else none
        triggers := [] } }

/-- The world once the fault is gone. -/
def healed (on : RequestKind) (world : World Nat (Desktop Nat)) : World Nat (Desktop Nat) :=
  { world with platform := world.platform.apply (.heal on) }

/-- The activation of a plot on a fragile desktop, and another one once the fault is gone. -/
def activateTwice (on : RequestKind) : Option
    (Run Nat (Desktop Nat) (Act Nat Note) ActivationOutcome ×
      Run Nat (Desktop Nat) (Act Nat Note) ActivationOutcome) :=
  (platform.process (platform.visit (fragile on).platform.pending) 0 (.activation ⟨2⟩)
    (fragile on)).bind fun first =>
  (platform.process (platform.visit (healed on first.world).platform.pending) 0 (.activation ⟨2⟩)
    (healed on first.world)).map fun second => (first, second)

/-- Both activations are operations. -/
theorem operate_of_activateTwice {on : RequestKind} {acts acts' : List (Act Nat Note)}
    {ending ending' : Ending ActivationOutcome} {world' done : World Nat (Desktop Nat)}
    (h : activateTwice on = some (⟨acts, ending, world'⟩, ⟨acts', ending', done⟩)) :
    operate (.process 0 (.activation ⟨2⟩)) (fragile on) =
        (.visit (.process 0 (.activation ⟨2⟩) acts ending), world') ∧
      operate (.process 0 (.activation ⟨2⟩)) (healed on world') =
        (.visit (.process 0 (.activation ⟨2⟩) acts' ending'), done) := by
  obtain ⟨run, processed, rest⟩ := Option.bind_eq_some_iff.mp h
  obtain ⟨run', processed', heq⟩ := Option.map_eq_some_iff.mp rest
  cases heq
  exact ⟨operate_of_process processed, operate_of_process processed'⟩

end Desktop

/-! ## The activation after a panic -/

/-- A response that returns for a window of the configured class that nobody else touches finds it a
child of the host, or embeds it. If it embeds a child of the host, the question about the parent has
failed. -/
theorem Act.Takes.embeds_or_already {d d' : Desktop ι} {acts : List (Act ι Note)} {lost : Bool}
    {x : Embedder} {installation : Installation} {win : Handle} {ending : Ending ActivationOutcome}
    (h : Act.Takes d acts lost d') (responds : x.Responds win acts ending)
    (returns : ending.unwinds = false) (installed : x.installation = some installation)
    (bears : d.reply (.className win classNameCapacity) = .returned (.ok x.options.plotClass))
    (spared : win ∉ Visit.allTouched (Act.visits acts)) :
    (d.parentOf win = some (some installation.host) ∧
      Act.requests acts = [.className win classNameCapacity, .parent win] ∧
      ending = .returned .alreadyEmbedded) ∨
    ((d.parentOf win = some (some installation.host) →
        ∃ failure, Act.Tells acts (.parent win) (.error failure)) ∧
      ∃ size, Act.requests acts = .className win classNameCapacity :: .parent win ::
          Embedder.steps x.options installation.host win size ∧
        ending = .returned (.embedded size)) := by
  -- The question about the class changes nothing, and neither do the visits meanwhile.
  have same : ∀ {capacity : Nat} {visits : List (Visit ι Note)} {between : Desktop ι} {lost : Bool},
      Visit.Takes (d.effect (.className win capacity)) visits lost between →
      win ∉ Visit.allTouched visits → between.parentOf win = d.parentOf win := by
    intro capacity visits between lost visited during
    rw [Desktop.parentOf, visited.windows_of_not_touched during,
      Desktop.windows_effect List.not_mem_nil, Desktop.parentOf]
  cases responds with
  | inactive vacant => exact nomatch vacant.symm.trans installed
  | classPanic _ => exact nomatch returns
  | mismatch _ other =>
    cases h with
    | answered reply _ _ => exact absurd (Ending.returned.inj (reply.symm.trans bears)) other
  | parentPanic _ => exact nomatch returns
  | already installed' =>
    obtain rfl := Option.some.inj (installed.symm.trans installed')
    cases h with
    | answered _ visited later =>
      cases later with
      | answered told _ _ =>
        rw [Act.visits, Visit.allTouched_append, List.mem_append, not_or] at spared
        have parent := Option.join_eq_some_iff.mp (Desktop.parentOf_of_reply told).symm
        exact .inl ⟨(same visited spared.1).symm.trans parent, rfl, rfl⟩
  | @embeds _ visits visits' answer later _ installed' other run =>
    obtain rfl := Option.some.inj (installed.symm.trans installed')
    have embedded : ∃ size,
        Act.requests later = Embedder.steps x.options installation.host win size ∧
        ending = .returned (.embedded size) := by
      obtain ⟨size, ⟨all, ended⟩ | ⟨-, panic, rfl⟩⟩ := Embedder.embed_allows run
      · exact ⟨size, all, ended⟩
      · exact nomatch returns
    obtain ⟨size, all, ended⟩ := embedded
    refine .inr ⟨fun child => ?_, size, congrArg (_ :: _ :: ·) all, ended⟩
    -- The window is a child of the host, but the answer was another one.
    cases h with
    | answered _ visited later =>
      cases later with
      | answered told _ _ =>
        rw [Act.visits, Visit.allTouched_append, List.mem_append, not_or] at spared
        rcases Desktop.answer_or_refusal told with right | ⟨failure, refused⟩
        · have right : answer = .ok (_ : Option Handle) := right
          rw [same visited spared.1, child] at right
          exact absurd right other
        · obtain rfl : .error failure = answer := Option.some.inj refused
          exact ⟨failure, visits', List.mem_cons_of_mem _ List.mem_cons_self⟩

namespace Desktop

variable [DecidableEq ι] {e : ι} {event event' : Event} {win : Handle} {operation : Operation ι}
  {record : Record ι Note} {world world' after : World ι (Desktop ι)} {acts : List (Act ι Note)}
  {panic : String}

/-- If nothing unwinds and nobody else touches the window, an installed embedder that is not busy
embeds a window of the configured class, unless the window is a child of the host. -/
theorem operate_activation {installation : Installation}
    (installed : (world.embedders e).installation = some installation)
    (idle : (world.embedders e).processing = false) (activated : event.activating? = some win)
    (bears : world.platform.reply (.className win classNameCapacity) =
      .returned (.ok (world.embedders e).options.plotClass)) :
    ∃ acts ending done,
      operate (.process e event) world = (.visit (.process e event acts ending), done) ∧
      ((∀ act ∈ acts, act.untroubled = true) → win ∉ Visit.allTouched (Act.visits acts) →
        (world.platform.parentOf win ≠ some (some installation.host) →
          ∃ size, ending = .returned (.embedded size) ∧
            Act.requests acts = .className win classNameCapacity :: .parent win ::
              Embedder.steps (world.embedders e).options installation.host win size) ∧
        (world.platform.parentOf win = some (some installation.host) →
          (∀ failure, ¬ Act.Tells acts (.parent win) (.error failure)) →
          ending = .returned .alreadyEmbedded ∧
            Act.requests acts = [.className win classNameCapacity, .parent win])) := by
  obtain ⟨⟨acts, ending, done⟩, processed, operated⟩ := operate_process e event world
  refine ⟨acts, ending, done, operated, fun untroubled spared => ?_⟩
  have takes := takes_process (coursing_visit _) processed
  have handles := (arise_process (Platform.orderly_visit _ _) processed).1
  cases handles with
  | other other => exact nomatch other.symm.trans activated
  | refused _ busy => exact nomatch busy.symm.trans idle
  | @responds win _ _ announced _ allowed =>
    obtain rfl := Option.some.inj (activated.symm.trans announced)
    have responds := Embedder.responds_of_allows allowed
    have returns := allowed.returns (Embedder.steady_respond _ _) untroubled
    rw [← reply_still] at bears
    rcases takes.embeds_or_already responds returns installed bears spared with
      ⟨child, all, ended⟩ | ⟨doubt, size, all, ended⟩
    · exact ⟨fun free => absurd child free, fun _ _ => ⟨ended, all⟩⟩
    · refine ⟨fun _ => ⟨size, ended, all⟩, fun child certain => ?_⟩
      -- A child of the host is embedded again only if the question about its parent failed.
      obtain ⟨failure, told⟩ := doubt child
      exact absurd told (certain failure)

/-- A panic has cut the handling of an activation short, in the course of whatever operation. If
nothing has touched the window or the installation since, and as long as the class of the window can
be read, nothing unwinds and nobody else touches the window, the next activation makes the embedding
complete, unless the window is a child of the host by then. A child of the host counts as embedded,
so nothing but its class and its parent is asked for. If nobody else touched the window while it was
handled first either, it is a child of the host if the embedder was told that it made it one, and it
is none if the embedder was told another parent and did not come to change it. -/
theorem process_after_panic (operated : operate operation world = (record, world'))
    (cut : ⟨e, event, acts, .unwound panic⟩ ∈ record.handlings)
    (activated : event.activating? = some win) (activated' : event'.activating? = some win)
    (kept : after.embedders e = world'.embedders e)
    (untouched : after.platform.windows win = world'.platform.windows win)
    (bears : after.platform.reply (.className win classNameCapacity) =
      .returned (.ok (after.embedders e).options.plotClass)) :
    ∃ installation, (after.embedders e).installation = some installation ∧
      (∃ acts' ending done,
        operate (.process e event') after = (.visit (.process e event' acts' ending), done) ∧
        ((∀ act ∈ acts', act.untroubled = true) → win ∉ Visit.allTouched (Act.visits acts') →
          (after.platform.parentOf win ≠ some (some installation.host) →
            ∃ size, ending = .returned (.embedded size) ∧
              Act.requests acts' = .className win classNameCapacity :: .parent win ::
                Embedder.steps (after.embedders e).options installation.host win size) ∧
          (after.platform.parentOf win = some (some installation.host) →
            (∀ failure, ¬ Act.Tells acts' (.parent win) (.error failure)) →
            ending = .returned .alreadyEmbedded ∧
              Act.requests acts' = [.className win classNameCapacity, .parent win]))) ∧
      (win ∉ Visit.allTouched (Act.visits acts) →
        (Act.Tells acts (.mutate (.setParent win installation.host)) (.ok ()) →
          after.platform.parentOf win = some (some installation.host)) ∧
        ∀ parent, Act.Tells acts (.parent win) (.ok parent) → parent ≠ some installation.host →
          .mutate (.setParent win installation.host) ∉ Act.requests acts →
          after.platform.parentOf win ≠ some (some installation.host)) := by
  have parent : after.platform.parentOf win = world'.platform.still.parentOf win := by
    rw [parentOf, untouched]
    rfl
  -- The panic unwound everything around it, so the desktop is as the handling left it.
  obtain ⟨before, took⟩ := takes_of_unwound operated cut
  obtain ⟨handles, left⟩ := (platform.arises_operate (operate_eq_iff.mp operated)).of_unwound cut
  -- The embedder is still as it was when the first handling began.
  rw [← left, ← kept] at handles
  cases handles with
  | @responds win _ _ announced idle allowed =>
    obtain rfl := Option.some.inj (activated.symm.trans announced)
    have responds := Embedder.responds_of_allows allowed
    obtain ⟨installation, installed⟩ := responds.installed
    refine ⟨installation, installed, operate_activation installed idle activated' bears, ?_⟩
    -- What the desktop tells now is what it told when the first handling was cut short.
    rw [parent]
    exact took.parentOf_of_responds responds installed

/-- A panic before the plot is made a child of the host leaves nothing behind that would keep the
next activation from embedding it. -/
theorem process_after_panic_of_lost_title : ∃ acts world' acts' size done,
    operate (.process 0 (.activation ⟨2⟩)) (fragile .clearTitle) =
      (.visit (.process 0 (.activation ⟨2⟩) acts (.unwound "lost")), world') ∧
    operate (.process 0 (.activation ⟨2⟩)) (healed .clearTitle world') =
      (.visit (.process 0 (.activation ⟨2⟩) acts' (.returned (.embedded size))), done) ∧
    Act.requests acts' = .className ⟨2⟩ classNameCapacity :: .parent ⟨2⟩ ::
      Embedder.steps {} ⟨1⟩ ⟨2⟩ size := by
  have runs : (activateTwice .clearTitle).map (fun (first, second) => decide (
      first.ending = .unwound "lost" ∧
      first.world.embedders 0 = crowded.embedders 0 ∧
      (healed .clearTitle first.world).platform.faults .className = none ∧
      (first.world.platform.className ⟨2⟩ classNameCapacity).toOption = some defaultPlotClass ∧
      (∀ act ∈ second.trace, act.untroubled = true) ∧
      ⟨2⟩ ∉ Visit.allTouched (Act.visits second.trace) ∧
      (healed .clearTitle first.world).platform.parentOf ⟨2⟩ ≠ some (some ⟨1⟩))) = some true := by
    decide +kernel
  obtain ⟨⟨⟨acts, ending, world'⟩, ⟨acts', ending', done⟩⟩, ran, outcome⟩ :=
    Option.map_eq_some_iff.mp runs
  obtain ⟨rfl, same, healthy, className, untroubled, spared, free⟩ := of_decide_eq_true outcome
  obtain ⟨operated, operated'⟩ := operate_of_activateTwice ran
  have same : (healed .clearTitle world').embedders 0 = crowded.embedders 0 := same
  have cut : ⟨0, .activation ⟨2⟩, acts, .unwound "lost"⟩ ∈
      Record.handlings (.visit (.process 0 (.activation ⟨2⟩) acts (.unwound "lost"))) :=
    List.mem_cons_self
  have bears : (healed .clearTitle world').platform.reply (.className ⟨2⟩ classNameCapacity) =
      .returned (.ok ((healed .clearTitle world').embedders 0).options.plotClass) := by
    rw [reply_of_healthy healthy, same]
    exact congrArg Ending.returned (Except.eq_ok_of_toOption className)
  have activated : (Event.activation ⟨2⟩).activating? = some ⟨2⟩ := rfl
  have kept : (healed .clearTitle world').embedders 0 = world'.embedders 0 := rfl
  have untouched : (healed .clearTitle world').platform.windows ⟨2⟩ =
      world'.platform.windows ⟨2⟩ := rfl
  obtain ⟨installation, installed, ⟨_, _, _, again, completes⟩, -⟩ :=
    process_after_panic operated cut activated activated kept untouched bears
  rw [same] at installed completes
  obtain rfl : ⟨⟨1⟩, ⟨0⟩⟩ = installation := Option.some.inj installed
  -- The second operation is the one of the general statement, as there is one result only.
  obtain ⟨visit, rfl⟩ := Prod.mk.inj (operated'.symm.trans again)
  obtain ⟨-, -, rfl, rfl⟩ := Visit.process.inj (Record.visit.inj visit)
  obtain ⟨size, ended, all⟩ := (completes untroubled spared).1 free
  exact ⟨acts, world', acts', size, done, operated, ended ▸ operated', all⟩

/-- A panic after the plot was made a child of the host leaves it there without its place and
unknown to the host. The fault is gone and nothing else has changed, but the next activation takes
the plot for embedded. -/
theorem half_embedded_of_lost_place : ∃ acts world' acts' done,
    operate (.process 0 (.activation ⟨2⟩)) (fragile .place) =
      (.visit (.process 0 (.activation ⟨2⟩) acts (.unwound "lost")), world') ∧
    .mutate (.postMessage ⟨1⟩ plotActivatedMessage) ∉ Act.requests acts ∧
    (healed .place world').embedders = crowded.embedders ∧
    (healed .place world').platform.windows = world'.platform.windows ∧
    (∀ kind, (healed .place world').platform.faults kind = none) ∧
    operate (.process 0 (.activation ⟨2⟩)) (healed .place world') =
      (.visit (.process 0 (.activation ⟨2⟩) acts' (.returned .alreadyEmbedded)), done) ∧
    Act.requests acts' = [.className ⟨2⟩ classNameCapacity, .parent ⟨2⟩] := by
  have runs : (activateTwice .place).map (fun (first, second) => decide (
      first.ending = .unwound "lost" ∧
      .mutate (.postMessage ⟨1⟩ plotActivatedMessage) ∉ Act.requests first.trace ∧
      (∀ kind ∈ RequestKind.all, (healed .place first.world).platform.faults kind = none) ∧
      second.ending = .returned .alreadyEmbedded ∧
      Act.requests second.trace = [.className ⟨2⟩ classNameCapacity, .parent ⟨2⟩])) =
        some true := by
    decide +kernel
  obtain ⟨⟨⟨acts, ending, world'⟩, ⟨acts', ending', done⟩⟩, ran, outcome⟩ :=
    Option.map_eq_some_iff.mp runs
  obtain ⟨rfl, silent, healthy, rfl, asked⟩ := of_decide_eq_true outcome
  obtain ⟨operated, operated'⟩ := operate_of_activateTwice ran
  have same : world'.embedders = crowded.embedders := by
    obtain ⟨run, processed, again⟩ := operate_process 0 (.activation ⟨2⟩) (fragile .place)
    have left : run.world = world' := (Prod.mk.inj (again.symm.trans operated)).2
    rw [← left]
    exact (arise_process (Platform.orderly_visit _ _) processed).2.2
  -- The evaluation has gone through the kinds one by one, and these are all.
  have healthy : ∀ kind, (healed .place world').platform.faults kind = none := by
    intro kind
    cases kind <;> exact healthy _ (by decide)
  exact ⟨acts, world', acts', done, operated, silent, same, rfl, healthy, operated', asked⟩

end Desktop

end PlotEmbedding
