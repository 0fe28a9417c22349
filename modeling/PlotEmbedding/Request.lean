import PlotEmbedding.Event
import PlotEmbedding.Area
import PlotEmbedding.Failure

/-!
# Requests to the platform

Everything an embedder can ask of the windowing platform. `Request.Answer` is the type of the
answer to each request: queries and mutations may fail, the check for a window and the hand-over to
the hook chain may not. `RequestKind` is what a request is without its arguments.
-/

namespace PlotEmbedding

/-- A reference to an installed activation hook, which means something to the platform only. -/
structure Hook where
  number : Int
  deriving DecidableEq, Repr

/-- The room for a class name, in UTF-16 units. -/
def classNameCapacity : Nat := 100

/-- The style of a plain child window, free of decorations. -/
def childWindowStyle : UInt32 := 0x40000000

/-- The extended style without any bit. -/
def noExtendedStyle : UInt32 := 0

/-- A change of a window, or a message to it. -/
inductive Mutation where
  /-- Replaces the style bits. -/
  | setStyle (win : Handle) (style : UInt32)
  /-- Replaces the extended style bits. -/
  | setExStyle (win : Handle) (style : UInt32)
  /-- Removes the menu bar. -/
  | removeMenu (win : Handle)
  /-- Clears the title. -/
  | clearTitle (win : Handle)
  /-- Makes the window a child of another. -/
  | setParent (win parent : Handle)
  /-- Moves and resizes the window and shows it on top. -/
  | place (win : Handle) (x y : Int32) (size : Size)
  /-- Posts a message without parameters. -/
  | postMessage (win : Handle) (message : UInt32)
  deriving DecidableEq, Repr

/-- A request to the platform. -/
inductive Request where
  /-- Is there a window with this handle? -/
  | isWindow (win : Handle)
  /-- The class of the window, cut to a number of UTF-16 units. -/
  | className (win : Handle) (capacity : Nat)
  /-- The parent of the window, if it has one. -/
  | parent (win : Handle)
  /-- The client area of the window. -/
  | clientArea (win : Handle)
  /-- A change of a window. -/
  | mutate (mutation : Mutation)
  /-- Registers the activation hook. -/
  | installHook
  /-- Releases a hook. -/
  | removeHook (hook : Hook)
  /-- Hands an event on to the rest of the hook chain. -/
  | forward (hook : Option Hook) (event : Event)
  deriving DecidableEq, Repr

/-- What the platform answers to a request. -/
abbrev Request.Answer : Request → Type
  | isWindow _ => Bool
  | className _ _ => Except Failure String
  | parent _ => Except Failure (Option Handle)
  | clientArea _ => Except Failure Area
  | mutate _ => Except Failure Unit
  | installHook => Except Failure Hook
  | removeHook _ => Except Failure Unit
  | forward _ _ => Int64

/-- The kind of a request. -/
inductive RequestKind where
  | isWindow
  | className
  | parent
  | clientArea
  | setStyle
  | setExStyle
  | removeMenu
  | clearTitle
  | setParent
  | place
  | postMessage
  | installHook
  | removeHook
  | forward
  deriving DecidableEq, Repr

/-- The name of a kind of request. -/
def RequestKind.name : RequestKind → String
  | isWindow => "is_window"
  | className => "class_name"
  | parent => "parent"
  | clientArea => "client_rect"
  | setStyle => "set_style"
  | setExStyle => "set_ex_style"
  | removeMenu => "remove_menu"
  | clearTitle => "clear_title"
  | setParent => "set_parent"
  | place => "place"
  | postMessage => "post_message"
  | installHook => "install_activation_hook"
  | removeHook => "remove_activation_hook"
  | forward => "forward"

/-- The kind of request that a mutation is. -/
def Mutation.kind : Mutation → RequestKind
  | setStyle _ _ => .setStyle
  | setExStyle _ _ => .setExStyle
  | removeMenu _ => .removeMenu
  | clearTitle _ => .clearTitle
  | setParent _ _ => .setParent
  | place _ _ _ _ => .place
  | postMessage _ _ => .postMessage

/-- The kind of a request. -/
def Request.kind : Request → RequestKind
  | isWindow _ => .isWindow
  | className _ _ => .className
  | parent _ => .parent
  | clientArea _ => .clientArea
  | mutate mutation => mutation.kind
  | installHook => .installHook
  | removeHook _ => .removeHook
  | forward _ _ => .forward

namespace Request

/-- The answer that refuses a request with a failure. A check for a window is refused by saying no,
and the hand-over to the hook chain cannot be refused. -/
def refusal? (failure : Failure) : (request : Request) → Option request.Answer
  | isWindow _ => some false
  | className _ _ => some (.error failure)
  | parent _ => some (.error failure)
  | clientArea _ => some (.error failure)
  | mutate _ => some (.error failure)
  | installHook => some (.error failure)
  | removeHook _ => some (.error failure)
  | forward _ _ => none

/-- The failure that an answer reports. -/
def failure? : (request : Request) → request.Answer → Option Failure
  | isWindow _, _ => none
  | className _ _, .error failure => some failure
  | parent _, .error failure => some failure
  | clientArea _, .error failure => some failure
  | mutate _, .error failure => some failure
  | installHook, .error failure => some failure
  | removeHook _, .error failure => some failure
  | _, _ => none

end Request

end PlotEmbedding
