import PlotEmbedding.Handle
import PlotEmbedding.Text.ByteOrder
import PlotEmbedding.Text.Units

/-!
# Failures

`EmbedError` names the causes that this library knows, each with its wording and its place in an
order. `Failure` is what a platform or an embedder reports: one of these causes, or a text that is
not well formed UTF-16.
-/

namespace PlotEmbedding

/-- A cause of failure in embedding windows. -/
inductive EmbedError where
  /-- The activation hook could not be registered. -/
  | hookRegistration (reason : String)
  /-- The activation hook could not be released. -/
  | hookRemoval (reason : String)
  /-- The host to embed into is no window. -/
  | invalidHostWindow (handle : Int64)
  /-- A question about a window got no answer. -/
  | windowQuery (query : String)
  /-- There is no window system to embed windows in. -/
  | unsupported
  deriving DecidableEq, Repr

namespace EmbedError

/-- The wording of an error. -/
def message : EmbedError → String
  | hookRegistration reason => "activation hook registration failed: " ++ reason
  | hookRemoval reason => "activation hook removal failed: " ++ reason
  | invalidHostWindow handle =>
    "invalid host window was given: " ++ Text.hexText 0 handle.toUInt64.toNat
  | windowQuery query => "window query " ++ query ++ " failed"
  | unsupported => "window embedding is only supported on windows"

/-- The place of an error's kind among the kinds. -/
def rank : EmbedError → Nat
  | hookRegistration _ => 0
  | hookRemoval _ => 1
  | invalidHostWindow _ => 2
  | windowQuery _ => 3
  | unsupported => 4

/-- Errors are ordered by kind, and within a kind by what they carry: texts by their bytes, handles
as signed numbers. -/
def compare : EmbedError → EmbedError → Ordering
  | hookRegistration s, hookRegistration t => Text.compareBytes s t
  | hookRemoval s, hookRemoval t => Text.compareBytes s t
  | invalidHostWindow h, invalidHostWindow k => Ord.compare h.toInt k.toInt
  | windowQuery s, windowQuery t => Text.compareBytes s t
  | a, b => Ord.compare a.rank b.rank

instance : Ord EmbedError := ⟨EmbedError.compare⟩

/-- The errors in ascending order. -/
def sort (errors : List EmbedError) : List EmbedError :=
  errors.mergeSort fun a b => (a.compare b).isLE

end EmbedError

/-- Whatever is reported as gone wrong. -/
inductive Failure where
  /-- A cause that this library knows. -/
  | embedding (error : EmbedError)
  /-- A text with a surrogate that has no partner. -/
  | loneSurrogate
  deriving DecidableEq, Repr

namespace Failure

/-- The wording of a failure. -/
def message : Failure → String
  | embedding error => error.message
  | loneSurrogate => "invalid utf-16: lone surrogate found"

/-- The kinds of value that one may ask a failure for. -/
inductive Kind where
  | embedError
  | malformedText
  | failure
  deriving DecidableEq, Repr

/-- The kind of value that a failure carries. It never carries another failure. -/
def carried : Failure → Kind
  | embedding _ => .embedError
  | loneSurrogate => .malformedText

/-- The failure carries a value of the given kind. -/
def carries (kind : Kind) (failure : Failure) : Bool := failure.carried == kind

/-- The embedding error that a failure carries. -/
def embedError? : Failure → Option EmbedError
  | embedding error => some error
  | loneSurrogate => none

/-- The wording of the malformed text that a failure carries. -/
def malformedText? : Failure → Option String
  | embedding _ => none
  | loneSurrogate => some loneSurrogate.message

/-- Puts another error in the place of the embedding error that a failure carries, if it carries
one. -/
def replaceEmbedError? (failure : Failure) (error : EmbedError) : Option Failure :=
  failure.embedError?.map fun _ => embedding error

/-- The failure that lies behind this one: a failure stands for itself alone. -/
def source? (_ : Failure) : Option Failure := none

end Failure

/-- The text that UTF-16 units stand for; a surrogate without its partner is a failure. -/
def decodeUnits (units : List UInt16) : Except Failure String :=
  match Text.decode units with
  | some text => .ok text
  | none => .error .loneSurrogate

end PlotEmbedding
