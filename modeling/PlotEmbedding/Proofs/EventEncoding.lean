import PlotEmbedding.Event
import PlotEmbedding.Proofs.HandleText

/-!
# Events and the windows that they announce

The first parameter of an activation event is a number without a sign, and the window is the handle
with the same bits. `Event.announces_exactly` says that nothing is lost on the way there and back:
the event that is made for a window announces this window, every event with the code announces one
window, by its first parameter alone, and it is the event made for this window unless its second
parameter says something more.
-/

namespace PlotEmbedding.Event

variable {event event' : Event} {win : Handle}

/-- An event announces the activation of a window if it has the code for that, and the bits of the
window for its first parameter. -/
theorem activating?_eq_some_iff :
    event.activating? = some win ↔
      event.code = activationCode ∧ event.wparam = win.value.toUInt64 := by
  rw [activating?]
  split
  · next activated =>
    rw [Option.some_inj]
    constructor
    · rintro rfl
      exact ⟨activated, (UInt64.toUInt64_toInt64 _).symm⟩
    · rintro ⟨-, bits⟩
      rw [bits, Int64.toInt64_toUInt64]
  · next other =>
    exact ⟨nofun, fun ⟨activated, _⟩ => absurd activated other⟩

theorem activating?_activation (win : Handle) : (activation win).activating? = some win :=
  activating?_eq_some_iff.mpr ⟨rfl, rfl⟩

/-- Every event with the code announces some window, and no other event does. -/
theorem isSome_activating?_iff : event.activating?.isSome ↔ event.code = activationCode := by
  constructor
  · intro announced
    obtain ⟨win, announced⟩ := Option.isSome_iff_exists.mp announced
    exact (activating?_eq_some_iff.mp announced).1
  · intro activated
    rw [activating?, if_pos activated]
    rfl

/-- The events made for a window are those that announce it and say no more. -/
theorem activation_eq_iff :
    activation win = event ↔ event.activating? = some win ∧ event.lparam = 0 := by
  constructor
  · rintro rfl
    exact ⟨activating?_activation win, rfl⟩
  · rintro ⟨announced, silent⟩
    obtain ⟨activated, bits⟩ := activating?_eq_some_iff.mp announced
    cases event
    rw [activation, ← activated, ← bits, ← silent]

/-- Two events with the code announce one window if their first parameters are the same. -/
theorem activating?_eq_iff (activated : event.code = activationCode)
    (activated' : event'.code = activationCode) :
    event.activating? = event'.activating? ↔ event.wparam = event'.wparam := by
  obtain ⟨win, announced⟩ := Option.isSome_iff_exists.mp (isSome_activating?_iff.mpr activated')
  rw [announced, activating?_eq_some_iff, and_iff_right activated,
    (activating?_eq_some_iff.mp announced).2]

/-- The event made for a window announces this window. The events with the code are all that
announce one, and the first parameter is its number or, for a negative one, exceeds it by `2 ^ 64`;
such an event is the one made for the window if and only if its second parameter is zero. Two of
them announce the same window if and only if their first parameters are equal. -/
theorem announces_exactly :
    (∀ win, (activation win).activating? = some win) ∧
    (∀ event : Event, event.activating?.isSome ↔ event.code = activationCode) ∧
    (∀ (event : Event) win, event.activating? = some win →
      (event.wparam.toNat : Int) =
        (if win.value.toInt < 0 then win.value.toInt + 2 ^ 64 else win.value.toInt) ∧
      (activation win = event ↔ event.lparam = 0)) ∧
    ∀ event event' : Event, event.code = activationCode → event'.code = activationCode →
      (event.activating? = event'.activating? ↔ event.wparam = event'.wparam) := by
  refine ⟨activating?_activation, fun _ => isSome_activating?_iff, fun event win announced => ?_,
    fun _ _ => activating?_eq_iff⟩
  constructor
  · rw [(activating?_eq_some_iff.mp announced).2, toNat_toUInt64]
  · rw [activation_eq_iff, and_iff_right announced]

/-- An event whose first parameter has all bits set announces the window `-1`, and it is not the
event made for this window if it has a second parameter. -/
theorem announces_of_all_bits :
    activating? ⟨5, 0xFFFFFFFFFFFFFFFF, 7⟩ = some ⟨-1⟩ ∧
    ((0xFFFFFFFFFFFFFFFF : UInt64).toNat : Int) = -1 + 2 ^ 64 ∧
    activation ⟨-1⟩ ≠ ⟨5, 0xFFFFFFFFFFFFFFFF, 7⟩ ∧
    activating? ⟨5, 0xFFFFFFFFFFFFFFFF, 7⟩ = activating? (activation ⟨-1⟩) := by
  obtain ⟨-, -, made, same⟩ := announces_exactly
  have announced : activating? ⟨5, 0xFFFFFFFFFFFFFFFF, 7⟩ = some ⟨-1⟩ := by decide
  obtain ⟨number, plain⟩ := made _ _ announced
  exact ⟨announced, number, fun eq => absurd (plain.mp eq) (by decide),
    (same _ (activation ⟨-1⟩) rfl rfl).mpr (by decide)⟩

end PlotEmbedding.Event
