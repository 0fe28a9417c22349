/-!
# Visible text

What shows of a text once the control functions of a terminal are taken out of it: control
characters, escape sequences, control sequences such as those that set a colour, and control strings
such as those that set the title of a window. Characters beyond ASCII show, and so do the four
control characters that lay text out.

A control function that is still open at the end of the text takes in all the rest, and cancelling
it ends it at once. A layout character inside an escape sequence or a control sequence shows and
interrupts it. Text after the interruption shows up to the next control character. There the
sequence goes on where it stood, unless a character beyond ASCII has ended it.
-/

namespace PlotEmbedding.Text

/-! ## Classes of characters -/

/-- The control characters that lay text out: tab, line feed, form feed and carriage return. -/
def isLayout (c : Char) : Bool := c = '\t' || c = '\n' || c = '\x0c' || c = '\r'

/-- A character is visible unless it is an ASCII control character that does not lay text out. -/
def isVisible (c : Char) : Bool := isLayout c || (' ' ≤ c && c ≠ '\x7f')

/-- The characters that may stand right before a final character. -/
def isIntermediate (c : Char) : Bool := ' ' ≤ c && c ≤ '/'

/-- The characters of parameters: digits, separators and private marks. -/
def isParameter (c : Char) : Bool := '0' ≤ c && c ≤ '?'

/-- The characters that end a control sequence. -/
def isFinal (c : Char) : Bool := '@' ≤ c && c ≤ '~'

/-- The bytes of the character hold the one byte that terminates a control string. -/
def holdsTerminator (c : Char) : Bool := (String.utf8EncodeChar c).contains 0x9c

/-! ## Control functions -/

/-- How far an open control function has been read. -/
inductive ControlFunction where
  /-- The escape character has come. -/
  | escape
  /-- An escape sequence with intermediate characters. -/
  | escapeSequence
  /-- A control sequence, which its final character ends. -/
  | controlSequence
  /-- A device control string of which nothing has come yet. -/
  | deviceControl
  /-- The parameters of a device control string. -/
  | deviceParameters
  /-- The intermediate characters of a device control string. -/
  | deviceIntermediates
  /-- The text of a control string, which a terminator ends. -/
  | controlString
  /-- An operating system command, which the bell ends. -/
  | systemCommand
  deriving DecidableEq, Repr

namespace ControlFunction

/-- Layout characters show inside a sequence and not inside a string. -/
def isSequence : ControlFunction → Bool
  | escape | escapeSequence | controlSequence => true
  | deviceControl | deviceParameters | deviceIntermediates | controlString | systemCommand => false

/-- What the character after an escape character opens, if it leaves anything open. -/
def ofIntroducer (c : Char) : Option ControlFunction :=
  if c = '[' then some controlSequence
  else if c = ']' then some systemCommand
  else if c = 'P' then some deviceControl
  else if c = 'X' || c = '^' || c = '_' then some controlString
  else if isIntermediate c then some escapeSequence
  else if isParameter c || isFinal c then none
  else some escape

/-- Reads one more character, and is `none` when that ends the control function. -/
def next (f : ControlFunction) (c : Char) : Option ControlFunction :=
  match f with
  | escape => ofIntroducer c
  | escapeSequence => if isParameter c || isFinal c then none else some escapeSequence
  | controlSequence => if isFinal c then none else some controlSequence
  | deviceControl =>
    if isIntermediate c then some deviceIntermediates
    else if isParameter c then some deviceParameters
    else if isFinal c then some controlString
    else some deviceControl
  | deviceParameters =>
    if isIntermediate c then some deviceIntermediates
    else if '<' ≤ c && c ≤ '~' then some controlString
    else some deviceParameters
  | deviceIntermediates =>
    if isParameter c || isFinal c then some controlString else some deviceIntermediates
  | controlString => if holdsTerminator c then none else some controlString
  | systemCommand => if c = '\x07' then none else some systemCommand

end ControlFunction

/-- The control function that is open after a character, if any. The escape character opens one
everywhere, and the characters to cancel and to substitute end one everywhere. -/
def controlAfter (control : Option ControlFunction) (c : Char) : Option ControlFunction :=
  if c = '\x1b' then some .escape
  else if c = '\x18' || c = '\x1a' then none
  else control.bind (·.next c)

/-- The character shows where this control function is open. -/
def showsIn (control : Option ControlFunction) (c : Char) : Bool :=
  match control with
  | none => isVisible c
  | some f => f.isSequence && isLayout c

/-! ## Reading a text -/

/-- Where the reading of a text stands. -/
structure VisibleReading where
  /-- The control function that is open. -/
  control : Option ControlFunction := none
  /-- The last character was shown. -/
  shown : Bool := false
  deriving DecidableEq, Repr

/-- Reads one more character. After one that was shown, visible text goes on. -/
def VisibleReading.next (r : VisibleReading) (c : Char) : VisibleReading :=
  if r.shown && isVisible c then
    { control := if c ≤ '\x7f' then r.control else none, shown := true }
  else { control := controlAfter r.control c, shown := showsIn r.control c }

/-- The characters that show when the reading goes on. -/
def visibleFrom (r : VisibleReading) : List Char → List Char
  | [] => []
  | c :: cs =>
    if (r.next c).shown then c :: visibleFrom (r.next c) cs else visibleFrom (r.next c) cs

/-- What shows of a text. -/
def visible (text : String) : String := String.ofList (visibleFrom {} text.toList)

example : visibleFrom {} ['\x1b', '[', '3', '1', 'm', 'r', 'e', 'd', '\x1b', '[', '0', 'm'] =
    ['r', 'e', 'd'] := by decide

example : visibleFrom {} ['a', '\x1b', ']', '0', ';', 't', '\x07', 'b'] = ['a', 'b'] := by decide

example : visibleFrom {} ['\x1b', '[', '3', '\r', 'A', '\x01', 'C', 'm'] = ['\r', 'A', 'm'] := by
  decide

end PlotEmbedding.Text
