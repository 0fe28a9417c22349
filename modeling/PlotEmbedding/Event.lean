import PlotEmbedding.Handle

/-!
# Hook events

The raw values that a platform passes to an activation hook. One code announces the activation of a
window, and the first parameter then holds the handle's bits; events of all other codes concern
something else.
-/

namespace PlotEmbedding

/-- The values that a hook receives. -/
structure Event where
  code : Int32
  wparam : UInt64
  lparam : Int64
  deriving DecidableEq, Repr

/-- The code that announces the activation of a window. -/
def activationCode : Int32 := 5

namespace Event

/-- The event that announces the activation of a window. -/
def activation (win : Handle) : Event := ⟨activationCode, win.value.toUInt64, 0⟩

/-- The window whose activation the event announces. -/
def activating? (event : Event) : Option Handle :=
  if event.code = activationCode then some ⟨event.wparam.toInt64⟩ else none

/-- The event says no more than that a window is about to be activated. -/
def isPlainActivation (event : Event) : Bool :=
  match event.activating? with
  | some win => activation win == event
  | none => false

end Event

end PlotEmbedding
