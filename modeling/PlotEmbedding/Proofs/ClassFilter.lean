import PlotEmbedding.Proofs.Interruption
import PlotEmbedding.Proofs.Text.Units

/-!
# The class filter

An embedder asks for the class of an activated window with room for a number of units, and goes on
only if the answer is the configured class. What is registered with a window is a list of units that
may be too long or ill formed, and the platform tells what becomes of it once it is cut and decoded,
by `Platform.TellsClass`. As long as the configured class leaves room for one unit more, nothing is
lost by that: `Platform.passes_class_iff` says that a window gets past the filter if and only if the
configured class is registered with it, unit by unit.

A name that is too long for the room is cut, and what is left of it is compared. One class gets past
the filter then that is not registered, which is the one that fills the room and with which the name
begins: this is `Platform.passes_long_name_iff`. Every other class keeps the window out.
-/

namespace PlotEmbedding

variable {ι ν σ α : Type}

namespace Text

/-- Units that are cut where a text is over already are decoded to the text only if they are the
units of the text, and so the cut takes nothing away. -/
theorem decode_take_eq_some_iff {units : List UInt16} {s : String} {n : Nat}
    (short : (encode s).length < n) : decode (units.take n) = some s ↔ units = encode s := by
  rw [decode_eq_some_iff]
  constructor
  · intro same
    have cut : (units.take n).length < n := same ▸ short
    rw [List.length_take] at cut
    have all : units.length ≤ n := by omega
    rwa [List.take_of_length_le all] at same
  · rintro rfl
    exact List.take_of_length_le (Nat.le_of_lt short)

end Text

/-! ## What the platform tells -/

/-- In this state, the platform tells the class of the window that is registered with it: whenever
it answers with room for a number of units, the answer is the text that so many of the units stand
for from the first one on, or a failure if there is no such text or no class. -/
def Platform.TellsClass (platform : Platform ι ν σ) (state : σ) (win : Handle)
    (registered : Option (List UInt16)) : Prop :=
  ∀ capacity (visitor : Visitor ι ν σ) embedders run,
    (platform.react (.className win capacity) state).follow visitor embedders = some run →
    ∀ answer, run.ending = .returned answer →
      answer.toOption = registered.bind fun units => Text.decode (units.take capacity)

/-- The desktop tells the classes of its windows unless the question meets a fault. -/
theorem Desktop.tellsClass {d : Desktop ι} (healthy : d.faults .className = none) (win : Handle) :
    platform.TellsClass d win ((d.windows win).bind Window.className) := by
  intro capacity visitor embedders run reacted answer returned
  -- Steps that run meanwhile may change the window, but not the answer any more.
  have same : answer = d.className win capacity :=
    Ending.returned.inj ((reply_of_react reacted returned).symm.trans (reply_of_healthy healthy))
  rw [same, className]
  cases (d.windows win).bind Window.className with
  | none => rfl
  | some units =>
    show (decodeUnits (units.take capacity)).toOption = Text.decode (units.take capacity)
    unfold decodeUnits
    cases Text.decode (units.take capacity) <;> rfl

/-! ## What the embedder makes of it -/

/-- The first request of a program is made in the world in which the program begins. -/
theorem Program.call_of_request {platform : Platform ι ν σ} {visitor : Visitor ι ν σ} {r : Request}
    {next : r.Answer → Program α} {world : World ι σ} {run : Run ι σ (Act ι ν) α}
    (h : (request r next).run platform visitor world = some run) :
    ∃ visits ending after rest,
      (platform.react r world.platform).follow visitor world.embedders =
        some ⟨visits, ending, after⟩ ∧
      run.trace = .call r visits ending :: rest := by
  rw [Program.run] at h
  split at h
  · cases h
  · next visits answer after reacted =>
    obtain ⟨later, -, rfl⟩ := Option.map_eq_some_iff.mp h
    exact ⟨visits, _, after, later.trace, reacted, rfl⟩
  · next visits panic after reacted =>
    cases h
    exact ⟨visits, _, after, [], reacted, rfl⟩

namespace Platform

variable [DecidableEq ι] {platform : Platform ι ν σ} {world : World ι σ} {e : ι} {event : Event}
  {win : Handle} {installation : Installation} {run : Run ι σ (Act ι ν) ActivationOutcome}

/-- The first request that an installed embedder makes on an activation is the one for the class. -/
theorem call_of_process {visitor : Visitor ι ν σ}
    (installed : (world.embedders e).installation = some installation)
    (idle : (world.embedders e).processing = false) (activated : event.activating? = some win)
    (h : platform.process visitor e event world = some run) :
    ∃ visits ending after rest,
      (platform.react (.className win classNameCapacity) world.platform).follow visitor
        (world.setProcessing e true).embedders = some ⟨visits, ending, after⟩ ∧
      run.trace = .call (.className win classNameCapacity) visits ending :: rest := by
  unfold process at h
  simp only [activated, idle, Bool.false_eq_true, if_false] at h
  obtain ⟨response, responded, rfl⟩ := Option.map_eq_some_iff.mp h
  unfold Embedder.respond at responded
  simp only [installed] at responded
  exact Program.call_of_request responded

/-- Whenever the question about the class is answered, a class that is shorter than the room for it
is matched exactly: the embedder goes on to ask for the parent of the window if and only if all the
units that are registered with the window are those of the configured class, and else the window is
left alone. -/
theorem passes_class_iff {depth : Nat} {registered : Option (List UInt16)}
    (tells : platform.TellsClass world.platform win registered)
    (installed : (world.embedders e).installation = some installation)
    (idle : (world.embedders e).processing = false) (activated : event.activating? = some win)
    (short : (Text.encode (world.embedders e).options.plotClass).length < classNameCapacity)
    (h : platform.process (platform.visit depth) e event world = some run)
    (answered : .className win classNameCapacity ∈ Act.answered run.trace) :
    (.parent win ∈ Act.requests run.trace ↔
      registered = some (Text.encode (world.embedders e).options.plotClass)) ∧
    (registered ≠ some (Text.encode (world.embedders e).options.plotClass) →
      Act.requests run.trace = [.className win classNameCapacity] ∧
      run.ending = .returned .classMismatch) := by
  -- An answer is the configured class if and only if the configured class is registered.
  have matched : ∀ {visits : List (Visit ι ν)} {answer : Except Failure String} {rest},
      run.trace = .call (.className win classNameCapacity) visits (.returned answer) :: rest →
      (answer = .ok (world.embedders e).options.plotClass ↔
        registered = some (Text.encode (world.embedders e).options.plotClass)) := by
    intro visits answer rest trace
    obtain ⟨visits', ending, after, rest', reacted, trace'⟩ :=
      call_of_process installed idle activated h
    cases trace.symm.trans trace'
    have told := tells classNameCapacity _ _ _ reacted answer rfl
    have ok : answer = .ok (world.embedders e).options.plotClass ↔
        answer.toOption = some (world.embedders e).options.plotClass := by
      cases answer <;> simp [Except.toOption]
    -- The class is shorter than the room for it, so a name that was cut is never taken for it.
    rw [ok, told, Option.bind_eq_some_iff]
    simp only [Text.decode_take_eq_some_iff short, exists_eq_right]
  have handles := (arise_process (platform.orderly_visit depth) h).1
  obtain ⟨trace, ending, after⟩ := run
  cases handles with
  | other other => exact nomatch other.symm.trans activated
  | refused _ busy => exact nomatch busy.symm.trans idle
  | @responds win' _ _ announced _ allowed =>
    obtain rfl : win' = win := Option.some.inj (announced.symm.trans activated)
    cases Embedder.responds_of_allows allowed with
    | inactive vacant => exact nomatch vacant.symm.trans installed
    | classPanic _ => exact nomatch answered
    | mismatch _ other =>
      have other := mt (matched rfl).mpr other
      refine ⟨iff_of_false ?_ other, fun _ => ⟨?_, rfl⟩⟩
      · simp [Act.requests]
      · simp [Act.requests]
    | parentPanic _ =>
      have same := (matched rfl).mp rfl
      exact ⟨iff_of_true (by simp [Act.requests]) same, absurd same⟩
    | already _ =>
      have same := (matched rfl).mp rfl
      exact ⟨iff_of_true (by simp [Act.requests]) same, absurd same⟩
    | embeds _ _ _ =>
      have same := (matched rfl).mp rfl
      exact ⟨iff_of_true (by simp [Act.requests]) same, absurd same⟩

end Platform

namespace Desktop

/-- A class of ninety-nine units, the last two of which are a surrogate pair. -/
def longClass : String := String.ofList (List.replicate 97 'p' ++ [Char.ofNat 0x1F5E0])

/-- The crowded desktop on which nothing goes wrong and these units are registered with a plot,
while the embedders look for the long class. -/
def labelled (units : List UInt16) : World Nat (Desktop Nat) where
  embedders e := { crowded.embedders e with options := { plotClass := longClass } }
  platform :=
    { windows := fun win =>
        if win = ⟨2⟩ then some { className := some units } else crowded.platform.windows win }

/-- The plot gets past the filter if the long class is registered with it. One unit more that the
question has room for, half of a surrogate pair, keeps it out. -/
theorem passes_class_of_long_class : ∃ run run',
    platform.process (platform.visit 0) 0 (.activation ⟨2⟩)
      (labelled (Text.encode longClass)) = some run ∧
    .parent ⟨2⟩ ∈ Act.requests run.trace ∧
    platform.process (platform.visit 0) 0 (.activation ⟨2⟩)
      (labelled (Text.encode longClass ++ [0xD83D])) = some run' ∧
    run'.ending = .returned .classMismatch := by
  -- The filter for any units, as far as it can be computed.
  have filter : ∀ units run,
      platform.process (platform.visit 0) 0 (.activation ⟨2⟩) (labelled units) = some run →
      .className ⟨2⟩ classNameCapacity ∈ Act.answered run.trace →
      (.parent ⟨2⟩ ∈ Act.requests run.trace ↔ some units = some (Text.encode longClass)) ∧
      (some units ≠ some (Text.encode longClass) →
        Act.requests run.trace = [.className ⟨2⟩ classNameCapacity] ∧
        run.ending = .returned .classMismatch) := by
    intro units run processed answered
    have tells := tellsClass (d := (labelled units).platform) rfl ⟨2⟩
    have installed : ((labelled units).embedders 0).installation = some ⟨⟨1⟩, ⟨0⟩⟩ := rfl
    have short : (Text.encode longClass).length < classNameCapacity := by decide +kernel
    have looksFor : ((labelled units).embedders 0).options.plotClass = longClass := rfl
    have idle : ((labelled units).embedders 0).processing = false := rfl
    have activated : (Event.activation ⟨2⟩).activating? = some ⟨2⟩ := rfl
    rw [← looksFor] at short ⊢
    exact Platform.passes_class_iff tells installed idle activated short processed answered
  have ran : ∀ units ∈ [Text.encode longClass, Text.encode longClass ++ [0xD83D]],
      ((platform.process (platform.visit 0) 0 (.activation ⟨2⟩) (labelled units)).map fun run =>
        decide (.className ⟨2⟩ classNameCapacity ∈ Act.answered run.trace)) = some true := by
    decide +kernel
  obtain ⟨first, second, -⟩ := by simpa only [List.forall_mem_cons] using ran
  obtain ⟨run, processed, answered⟩ := Option.map_eq_some_iff.mp first
  obtain ⟨run', processed', answered'⟩ := Option.map_eq_some_iff.mp second
  have passes := (filter _ run processed (of_decide_eq_true answered)).1.mpr rfl
  have stays := (filter _ run' processed' (of_decide_eq_true answered')).2 (by decide +kernel)
  exact ⟨run, run', processed, passes, processed', stays.2⟩

end Desktop

/-! ## Names that are too long -/

/-- One more character adds its units. -/
theorem Text.encode_push (s : String) (c : Char) :
    encode (s.push c) = encode s ++ encodeChar c := by
  rw [encode, String.toList_push, List.flatMap_append, List.flatMap_singleton, encode]

/-- Units that are cut are decoded to a text if and only if the text has all the units that are left
and they begin with it. -/
theorem Text.decode_take_eq_some_iff_of_long {units : List UInt16} {s : String} {n : Nat}
    (long : n < units.length) :
    decode (units.take n) = some s ↔ (encode s).length = n ∧ encode s <+: units := by
  rw [decode_eq_some_iff]
  constructor
  · intro same
    rw [← same, List.length_take]
    exact ⟨by omega, List.take_prefix n units⟩
  · rintro ⟨full, first⟩
    rw [← full]
    exact (List.prefix_iff_eq_take.mp first).symm

/-- Once the question about the class is answered, the answer alone decides whether the embedder
goes on to ask for the parent or leaves the window alone. -/
theorem Embedder.Responds.passes_iff {x : Embedder} {win : Handle} {visits : List (Visit ι ν)}
    {answer : Except Failure String} {rest : List (Act ι ν)} {ending : Ending ActivationOutcome}
    (h : x.Responds win
      (.call (.className win classNameCapacity) visits (.returned answer) :: rest) ending) :
    (.parent win ∈ Act.requests rest ↔ answer = .ok x.options.plotClass) ∧
    (answer ≠ .ok x.options.plotClass →
      Act.requests rest = [] ∧ ending = .returned .classMismatch) := by
  cases h with
  | mismatch _ other =>
    rw [Act.requests_reports]
    exact ⟨iff_of_false List.not_mem_nil other, fun _ => ⟨rfl, rfl⟩⟩
  | parentPanic _ => exact ⟨iff_of_true List.mem_cons_self rfl, absurd rfl⟩
  | already _ => exact ⟨iff_of_true List.mem_cons_self rfl, absurd rfl⟩
  | embeds _ _ _ => exact ⟨iff_of_true List.mem_cons_self rfl, absurd rfl⟩

namespace Platform

variable [DecidableEq ι] {platform : Platform ι ν σ} {world : World ι σ} {e : ι} {event : Event}
  {win : Handle} {installation : Installation} {run : Run ι σ (Act ι ν) ActivationOutcome}

/-- The name that is registered with a window is too long to be answered. Whatever the configured
class is, the embedder then goes on to ask for the parent of the window if and only if the class
fills the room for the answer and the name begins with it. In every other case the class is all that
it asks for, and the window is left alone once the question is answered. -/
theorem passes_long_name_iff {depth : Nat} {registered : List UInt16}
    (tells : platform.TellsClass world.platform win (some registered))
    (long : classNameCapacity < registered.length)
    (installed : (world.embedders e).installation = some installation)
    (idle : (world.embedders e).processing = false) (activated : event.activating? = some win)
    (h : platform.process (platform.visit depth) e event world = some run)
    (answered : .className win classNameCapacity ∈ Act.answered run.trace) :
    (.parent win ∈ Act.requests run.trace ↔
      (Text.encode (world.embedders e).options.plotClass).length = classNameCapacity ∧
      Text.encode (world.embedders e).options.plotClass <+: registered) ∧
    (¬ ((Text.encode (world.embedders e).options.plotClass).length = classNameCapacity ∧
        Text.encode (world.embedders e).options.plotClass <+: registered) →
      Act.requests run.trace = [.className win classNameCapacity] ∧
      run.ending = .returned .classMismatch) := by
  obtain ⟨visits, ending, after, rest, reacted, trace⟩ :=
    call_of_process installed idle activated h
  have handles := (arise_process (platform.orderly_visit depth) h).1
  rw [trace] at handles answered ⊢
  generalize run.ending = ended at handles ⊢
  cases handles with
  | @responds win' _ _ announced _ allowed =>
    obtain rfl : win' = win := Option.some.inj (announced.symm.trans activated)
    have responds := Embedder.responds_of_allows allowed
    cases ending with
    | unwound panic =>
      cases responds with
      -- A question that unwinds is not answered.
      | classPanic _ => cases answered
    | returned answer =>
      -- The answer is the configured class if and only if that is what the cut leaves of the name.
      have matched : answer = .ok (world.embedders e).options.plotClass ↔
          (Text.encode (world.embedders e).options.plotClass).length = classNameCapacity ∧
          Text.encode (world.embedders e).options.plotClass <+: registered := by
        have told : answer.toOption = Text.decode (registered.take classNameCapacity) :=
          tells classNameCapacity _ _ _ reacted answer rfl
        rw [← Text.decode_take_eq_some_iff_of_long long, ← told]
        cases answer <;> simp [Except.toOption]
      obtain ⟨passes, stays⟩ := responds.passes_iff
      rw [← matched, Act.requests, List.mem_cons]
      refine ⟨(or_iff_right (by simp)).trans passes, fun other => ?_⟩
      obtain ⟨silent, ended⟩ := stays other
      exact ⟨congrArg (_ :: ·) silent, ended⟩

end Platform

namespace Desktop

/-- A class that fills the room for the answer. -/
def fullClass : String := longClass.push 'p'

theorem length_encode_fullClass : (Text.encode fullClass).length = classNameCapacity := by
  have short : (Text.encode longClass).length = 99 := by decide +kernel
  rw [fullClass, Text.encode_push, List.length_append, short]
  rfl

/-- The desktop on which nothing goes wrong and the plot has a name that begins with the full class
and goes on, while the embedders look for this class. -/
def overlong : World Nat (Desktop Nat) :=
  { labelled (Text.encode fullClass ++ [0x70]) with
    embedders e := { crowded.embedders e with options := { plotClass := fullClass } } }

/-- The name is too long by a unit. -/
theorem long_of_overlong : classNameCapacity < (Text.encode fullClass ++ [0x70]).length := by
  rw [List.length_append, length_encode_fullClass]
  exact Nat.lt_succ_self _

/-- The plot is embedded. -/
theorem process_overlong : ∃ run,
    platform.process (platform.visit 0) 0 (.activation ⟨2⟩) overlong = some run ∧
    .className ⟨2⟩ classNameCapacity ∈ Act.answered run.trace ∧
    .mutate (.setParent ⟨2⟩ ⟨1⟩) ∈ Act.requests run.trace ∧
    run.ending = .returned (.embedded ⟨0, 0⟩) := by
  have ran : ((platform.process (platform.visit 0) 0 (.activation ⟨2⟩) overlong).map
      fun run => decide (.className ⟨2⟩ classNameCapacity ∈ Act.answered run.trace ∧
        .mutate (.setParent ⟨2⟩ ⟨1⟩) ∈ Act.requests run.trace ∧
        run.ending = .returned (.embedded ⟨0, 0⟩))) = some true := by
    decide +kernel
  obtain ⟨run, processed, outcome⟩ := Option.map_eq_some_iff.mp ran
  exact ⟨run, processed, of_decide_eq_true outcome⟩

/-- The long name does not keep the plot out, since it begins with the class that fills the room. -/
theorem passes_long_name_of_full_class : ∃ run,
    platform.process (platform.visit 0) 0 (.activation ⟨2⟩) overlong = some run ∧
    .parent ⟨2⟩ ∈ Act.requests run.trace := by
  obtain ⟨run, processed, answered, -⟩ := process_overlong
  have tells := tellsClass (d := overlong.platform) rfl ⟨2⟩
  have installed : (overlong.embedders 0).installation = some ⟨⟨1⟩, ⟨0⟩⟩ := rfl
  have idle : (overlong.embedders 0).processing = false := rfl
  have activated : (Event.activation ⟨2⟩).activating? = some ⟨2⟩ := rfl
  have filter := Platform.passes_long_name_iff tells long_of_overlong installed idle activated
    processed answered
  exact ⟨run, processed, filter.1.mpr ⟨length_encode_fullClass, List.prefix_append _ _⟩⟩

/-- A plot whose name is too long to be answered, and which is not the configured class, is embedded
all the same: the configured class is what the answer leaves of the name. -/
theorem embeds_of_cut_name :
    platform.TellsClass overlong.platform ⟨2⟩ (some (Text.encode fullClass ++ [0x70])) ∧
    classNameCapacity < (Text.encode fullClass ++ [0x70]).length ∧
    Text.encode fullClass ++ [0x70] ≠ Text.encode (overlong.embedders 0).options.plotClass ∧
    ∃ run size, platform.process (platform.visit 0) 0 (.activation ⟨2⟩) overlong = some run ∧
      .mutate (.setParent ⟨2⟩ ⟨1⟩) ∈ Act.requests run.trace ∧
      run.ending = .returned (.embedded size) := by
  obtain ⟨run, processed, -, adopted, ended⟩ := process_overlong
  have other : Text.encode fullClass ++ [0x70] ≠ Text.encode fullClass := by simp
  exact ⟨tellsClass rfl ⟨2⟩, long_of_overlong, other, run, ⟨0, 0⟩, processed, adopted, ended⟩

end Desktop

end PlotEmbedding
